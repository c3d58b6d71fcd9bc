import ConnectExamples.Search.MoveBehind
import ConnectExamples.Tracing.Traced

/-!
# The bootstrap of the Python package

`registerGeneratedWkt` takes the entries of `sys.path` that resolve to the
generated tree out, imports `google.protobuf`, and puts them back at the end.
The import sees the path without them. It can fail, and so can the resolution of
an entry; only the first half of the function has run then, and the entries that
were taken out are not put back.
-/

namespace ConnectExamples

namespace Python

open SearchPath Tracing

/-- The machine on which the package is imported: what `Path(__file__)` and the
resolution of a path give or raise, which exceptions are an `OSError`, what an
attempt to import `google.protobuf` along a path finds as the `__path__` of the
package, and which paths are directories. -/
structure Host (E : Type) where
  gen : Except E String
  resolve : String → Except E String
  isOSError : E → Bool
  load : List String → Except E (List String)
  isDir : String → Bool

/-- The interpreter: `sys.path`, and `google.protobuf.__path__` once the package
is in `sys.modules`. -/
structure Interpreter where
  sysPath : List String
  protobuf : Option (List String)
  deriving DecidableEq

variable {E : Type}

def imported (h : Host E) (st : Interpreter) : Except E (List String) :=
  match st.protobuf with
  | some path => .ok path
  | none => h.load st.sysPath

/-- `import google.protobuf`; a package that was imported before is not looked
for again. -/
def importProtobuf (h : Host E) (st : Interpreter) : Except E (List String) × Interpreter :=
  match imported h st with
  | .ok path => (.ok path, { st with protobuf := some path })
  | .error e => (.error e, st)

/-- The loop over `sys.path`, with the lists `removed` and `kept`. -/
def partitionEntries (h : Host E) (genResolved : String) :
    List String → List String → List String → Except E (List String × List String)
  | [], removed, kept => .ok (removed, kept)
  | entry :: rest, removed, kept =>
      match h.resolve entry with
      | .ok path =>
          if path = genResolved then partitionEntries h genResolved rest (removed ++ [entry]) kept
          else partitionEntries h genResolved rest removed (kept ++ [entry])
      | .error e =>
          if h.isOSError e then partitionEntries h genResolved rest removed (kept ++ [entry])
          else .error e

def appendPath (wkt : String) (path : List String) : List String :=
  if wkt ∈ path then path else path ++ [wkt]

/-- `_register_generated_wkt`; it logs `sys.path` as the import sees it. -/
def registerGeneratedWkt (h : Host E) : Traced (List String) Interpreter (Except E Unit) := do
  match h.gen with
  | .error e => return .error e
  | .ok gen =>
      match h.resolve gen with
      | .error e => return .error e
      | .ok genResolved =>
          let sysPath ← Traced.lift fun st => (st.sysPath, st)
          match partitionEntries h genResolved sysPath [] [] with
          | .error e => return .error e
          | .ok (removed, kept) =>
              Traced.lift fun st => ((), { st with sysPath := kept })
              Traced.emit fun st => st.sysPath
              match ← Traced.lift (importProtobuf h) with
              | .error e => return .error e
              | .ok _ =>
                  Traced.lift fun st => ((), { st with sysPath := st.sysPath ++ removed })
                  let wkt := gen ++ "/google/protobuf"
                  if h.isDir wkt then
                    Traced.lift fun st =>
                      ((), { st with protobuf := st.protobuf.map (appendPath wkt) })
                  return .ok ()

def isGen (h : Host E) (genResolved entry : String) : Bool :=
  match h.resolve entry with
  | .ok path => path == genResolved
  | .error _ => false

/-- The resolution of the entry raises something other than an `OSError`. -/
def raises (h : Host E) (entry : String) : Bool :=
  match h.resolve entry with
  | .ok _ => false
  | .error e => !h.isOSError e

section Partition

variable (h : Host E) (genResolved : String)

/-- The loop is a stable partition where no entry stops it. -/
theorem partitionEntries_eq (entries removed kept : List String)
    (hentries : ∀ entry ∈ entries, raises h entry = false) :
    partitionEntries h genResolved entries removed kept =
      .ok (removed ++ entries.filter (isGen h genResolved),
        kept ++ entries.filter fun entry => !isGen h genResolved entry) := by
  induction entries generalizing removed kept with
  | nil => simp [partitionEntries]
  | cons entry rest ih =>
      have hentry := hentries entry List.mem_cons_self
      have tail := fun removed kept =>
        ih removed kept fun e he => hentries e (List.mem_cons_of_mem entry he)
      cases hresolve : h.resolve entry with
      | ok path =>
          by_cases hpath : path = genResolved <;>
            simp [partitionEntries, hresolve, hpath, isGen, tail]
      | error e =>
          have hos : h.isOSError e = true := by simpa [raises, hresolve] using hentry
          simp [partitionEntries, hresolve, hos, isGen, tail]

theorem partitionEntries_error (entries removed kept : List String)
    (hentries : ∃ entry ∈ entries, raises h entry = true) :
    ∃ e, partitionEntries h genResolved entries removed kept = .error e := by
  induction entries generalizing removed kept with
  | nil => simp at hentries
  | cons entry rest ih =>
      cases hresolve : h.resolve entry with
      | ok path =>
          have hrest : ∃ entry ∈ rest, raises h entry = true := by
            simpa [raises, hresolve] using hentries
          by_cases hpath : path = genResolved
          · simpa [partitionEntries, hresolve, hpath] using ih _ _ hrest
          · simpa [partitionEntries, hresolve, hpath] using ih _ _ hrest
      | error e =>
          cases hos : h.isOSError e with
          | false => exact ⟨e, by simp [partitionEntries, hresolve, hos]⟩
          | true =>
              have hrest : ∃ entry ∈ rest, raises h entry = true := by
                simpa [raises, hresolve, hos] using hentries
              simpa [partitionEntries, hresolve, hos] using ih _ _ hrest

end Partition

section Run

variable {h : Host E} {gen genResolved : String} {st : Interpreter}

def kept (h : Host E) (genResolved : String) (sysPath : List String) : List String :=
  sysPath.filter fun entry => !isGen h genResolved entry

theorem exec_of_gen_error {e : E} (hgen : h.gen = .error e) :
    (registerGeneratedWkt h).exec st = ⟨.error e, [], st⟩ := by
  simp [registerGeneratedWkt, hgen]

theorem exec_of_resolve_error {e : E} (hgen : h.gen = .ok gen)
    (hresolve : h.resolve gen = .error e) :
    (registerGeneratedWkt h).exec st = ⟨.error e, [], st⟩ := by
  simp [registerGeneratedWkt, hgen, hresolve]

/-- An entry whose resolution raises stops the function before it has changed
anything. -/
theorem exec_of_raises (hgen : h.gen = .ok gen) (hresolve : h.resolve gen = .ok genResolved)
    (hentry : ∃ entry ∈ st.sysPath, raises h entry = true) :
    ∃ e, (registerGeneratedWkt h).exec st = ⟨.error e, [], st⟩ := by
  obtain ⟨e, he⟩ := partitionEntries_error h genResolved st.sysPath [] [] hentry
  exact ⟨e, by simp [registerGeneratedWkt, hgen, hresolve, he]⟩

/-- An import that fails leaves `sys.path` without the generated tree. -/
theorem exec_of_import_error {e : E} (hgen : h.gen = .ok gen)
    (hresolve : h.resolve gen = .ok genResolved)
    (hentries : ∀ entry ∈ st.sysPath, raises h entry = false)
    (himport : imported h { st with sysPath := kept h genResolved st.sysPath } = .error e) :
    (registerGeneratedWkt h).exec st =
      ⟨.error e, [kept h genResolved st.sysPath],
        { st with sysPath := kept h genResolved st.sysPath }⟩ := by
  have hpartition := partitionEntries_eq h genResolved st.sysPath [] [] hentries
  unfold kept at himport ⊢
  simp [registerGeneratedWkt, hgen, hresolve, hpartition, importProtobuf, himport]

/-- `google.protobuf.__path__` with the generated package, where there is one. -/
def extendedPath (h : Host E) (gen : String) (path : List String) : List String :=
  if h.isDir (gen ++ "/google/protobuf") then appendPath (gen ++ "/google/protobuf") path
  else path

/-- An import that succeeds is followed by the generated tree. -/
theorem exec_of_import_ok {path : List String} (hgen : h.gen = .ok gen)
    (hresolve : h.resolve gen = .ok genResolved)
    (hentries : ∀ entry ∈ st.sysPath, raises h entry = false)
    (himport : imported h { st with sysPath := kept h genResolved st.sysPath } = .ok path) :
    (registerGeneratedWkt h).exec st =
      ⟨.ok (), [kept h genResolved st.sysPath],
        ⟨moveBehind (isGen h genResolved) st.sysPath, some (extendedPath h gen path)⟩⟩ := by
  have hpartition := partitionEntries_eq h genResolved st.sysPath [] [] hentries
  unfold kept at himport ⊢
  by_cases hdir : h.isDir (gen ++ "/google/protobuf") = true
  · simp [registerGeneratedWkt, hgen, hresolve, hpartition, importProtobuf, himport, hdir,
      moveBehind, extendedPath]
  · simp [registerGeneratedWkt, hgen, hresolve, hpartition, importProtobuf, himport, hdir,
      moveBehind, extendedPath]

end Run

/-! ## Runs that raise -/

/-- A run that raises leaves `sys.path` as it was. -/
def RestoresPath (h : Host E) (st : Interpreter) : Prop :=
  ∀ e, ((registerGeneratedWkt h).exec st).result = .error e →
    ((registerGeneratedWkt h).exec st).state.sysPath = st.sysPath

/-- A run that raises leaves `sys.path` as it was exactly when it does not get
as far as an import that fails after entries were taken out: the generated tree
has no resolved path, the resolution of an entry raises, no entry resolves to
the generated tree, or the import succeeds. -/
theorem restoresPath_iff (h : Host E) (st : Interpreter) :
    RestoresPath h st ↔
      ∀ gen genResolved, h.gen = .ok gen → h.resolve gen = .ok genResolved →
        (∃ entry ∈ st.sysPath, raises h entry = true) ∨
          (∀ entry ∈ st.sysPath, isGen h genResolved entry = false) ∨
          ∃ path, imported h { st with sysPath := kept h genResolved st.sysPath } = .ok path := by
  constructor
  · intro hrestores gen genResolved hgen hresolve
    by_cases hraises : ∃ entry ∈ st.sysPath, raises h entry = true
    · exact .inl hraises
    have hentries : ∀ entry ∈ st.sysPath, raises h entry = false := by
      simpa using hraises
    cases himport : imported h { st with sysPath := kept h genResolved st.sysPath } with
    | ok path => exact .inr (.inr ⟨path, rfl⟩)
    | error e =>
        have hexec := exec_of_import_error hgen hresolve hentries himport
        have hpath : kept h genResolved st.sysPath = st.sysPath := by
          have hstate := hrestores e (by rw [hexec])
          rwa [hexec] at hstate
        refine .inr (.inl fun entry hentry => ?_)
        simpa using List.filter_eq_self.mp hpath entry hentry
  · intro hcond e herror
    cases hgen : h.gen with
    | error e => rw [exec_of_gen_error hgen]
    | ok gen =>
        cases hresolve : h.resolve gen with
        | error e => rw [exec_of_resolve_error hgen hresolve]
        | ok genResolved =>
            by_cases hraises : ∃ entry ∈ st.sysPath, raises h entry = true
            · obtain ⟨e, hexec⟩ := exec_of_raises hgen hresolve hraises
              rw [hexec]
            have hentries : ∀ entry ∈ st.sysPath, raises h entry = false := by
              simpa using hraises
            rcases hcond gen genResolved hgen hresolve with hentry | hnone | ⟨path, himport⟩
            · exact absurd hentry hraises
            · have hpath : kept h genResolved st.sysPath = st.sysPath :=
                List.filter_eq_self.mpr fun entry hentry => by simp [hnone entry hentry]
              cases himport : imported h { st with sysPath := kept h genResolved st.sysPath } with
              | ok path =>
                  rw [exec_of_import_ok hgen hresolve hentries himport] at herror
                  cases herror
              | error e => rw [exec_of_import_error hgen hresolve hentries himport, hpath]
            · rw [exec_of_import_ok hgen hresolve hentries himport] at herror
              cases herror

/-- A host without `google.protobuf`, on which every path resolves to itself. -/
def withoutProtobuf : Host Unit where
  gen := .ok "/repo/python/gen"
  resolve entry := .ok entry
  isOSError _ := false
  load _ := .error ()
  isDir _ := true

theorem withoutProtobuf_loses_gen :
    ¬ RestoresPath withoutProtobuf ⟨["/repo/python/gen", "/usr/lib/python3"], none⟩ := by
  intro hrestores
  exact absurd (hrestores () rfl) (by decide)

/-! ## Runs that return -/

section ExtendedPath

variable (h : Host E) (gen : String) (path : List String)

/-- The directory is appended at most once. -/
theorem extendedPath_eq :
    extendedPath h gen path = path ∨
      gen ++ "/google/protobuf" ∉ path ∧
        extendedPath h gen path = path ++ [gen ++ "/google/protobuf"] := by
  unfold extendedPath appendPath
  split
  · split
    · exact .inl rfl
    · rename_i hmem
      exact .inr ⟨hmem, rfl⟩
  · exact .inl rfl

theorem mem_extendedPath_iff :
    gen ++ "/google/protobuf" ∈ extendedPath h gen path ↔
      gen ++ "/google/protobuf" ∈ path ∨ h.isDir (gen ++ "/google/protobuf") = true := by
  unfold extendedPath appendPath
  split
  · rename_i hdir
    split
    · rename_i hmem
      simp [hmem]
    · simp [hdir]
  · rename_i hdir
    simp [hdir]

theorem find?_extendedPath {has : String → Bool} {entry : String}
    (hfind : path.find? has = some entry) :
    (extendedPath h gen path).find? has = some entry := by
  rcases extendedPath_eq h gen path with heq | ⟨-, heq⟩
  · rw [heq, hfind]
  · rw [heq, List.find?_append, hfind, Option.some_or]

theorem extendedPath_idem :
    extendedPath h gen (extendedPath h gen path) = extendedPath h gen path := by
  by_cases hdir : h.isDir (gen ++ "/google/protobuf") = true
  · have hmem := (mem_extendedPath_iff h gen path).mpr (.inr hdir)
    rcases extendedPath_eq h gen (extendedPath h gen path) with heq | ⟨hnot, -⟩
    · exact heq
    · exact absurd hmem hnot
  · simp [extendedPath, hdir]

end ExtendedPath

theorem isGen_iff (h : Host E) (genResolved entry : String) :
    isGen h genResolved entry = true ↔ h.resolve entry = .ok genResolved := by
  cases hresolve : h.resolve entry <;> simp [isGen, hresolve]

/-- The function only moves the generated tree behind everything else. While
`google.protobuf` is imported no entry resolves to the generated tree;
afterwards the path is the stable partition of what it was, a module is found
where it would be found without the generated tree, which is asked only for the
rest, a submodule of `google.protobuf` is found where it was, and a second run
changes nothing. -/
theorem registerGeneratedWkt_moves_gen (h : Host E) (st : Interpreter)
    (gen genResolved : String) (path : List String) (hgen : h.gen = .ok gen)
    (hresolve : h.resolve gen = .ok genResolved)
    (honly : ∀ entry ∈ st.sysPath, ∀ e, h.resolve entry = .error e → h.isOSError e = true)
    (himport : imported h { st with sysPath := kept h genResolved st.sysPath } = .ok path) :
    let r := (registerGeneratedWkt h).exec st
    let moved := isGen h genResolved
    let wkt := gen ++ "/google/protobuf"
    r.result = .ok () ∧
      (∃ seen, r.events = [seen] ∧ ∀ entry ∈ seen, h.resolve entry ≠ .ok genResolved) ∧
      (∀ entry, moved entry = true ↔ h.resolve entry = .ok genResolved) ∧
      r.state.sysPath =
        st.sysPath.filter (fun entry => !moved entry) ++ st.sysPath.filter moved ∧
      r.state.sysPath.Perm st.sysPath ∧
      (∀ has entry,
        ((st.sysPath.filter fun entry => !moved entry).find? has = some entry →
          r.state.sysPath.find? has = some entry) ∧
        (r.state.sysPath.find? has = some entry → moved entry = true →
          (st.sysPath.filter fun entry => !moved entry).find? has = none)) ∧
      (∃ path', r.state.protobuf = some path' ∧
        (∀ has entry, path.find? has = some entry → path'.find? has = some entry) ∧
        (path' = path ∨ wkt ∉ path ∧ path' = path ++ [wkt]) ∧
        (wkt ∈ path' ↔ wkt ∈ path ∨ h.isDir wkt = true)) ∧
      ((registerGeneratedWkt h).exec r.state).result = .ok () ∧
      ((registerGeneratedWkt h).exec r.state).state = r.state := by
  intro r moved wkt
  have hraises : ∀ entry, (∀ e, h.resolve entry = .error e → h.isOSError e = true) →
      raises h entry = false := by
    intro entry hentry
    cases hresolve : h.resolve entry with
    | ok path => simp [raises, hresolve]
    | error e => simp [raises, hresolve, hentry e hresolve]
  have hexec : r = _ := exec_of_import_ok hgen hresolve
    (fun entry hentry => hraises entry (honly entry hentry)) himport
  have hloaded : imported h { r.state with sysPath := kept h genResolved r.state.sysPath } =
      .ok (extendedPath h gen path) := by
    rw [hexec]
    rfl
  have hagain : (registerGeneratedWkt h).exec r.state = _ :=
    exec_of_import_ok hgen hresolve
      (fun entry hentry => hraises entry (honly entry
        ((moveBehind_perm moved st.sysPath).mem_iff.mp (by rwa [hexec] at hentry))))
      hloaded
  rw [hagain, hexec]
  refine ⟨rfl, ⟨_, rfl, fun entry hentry => ?_⟩, isGen_iff h genResolved, rfl,
    moveBehind_perm moved st.sysPath, fun has entry => ⟨?_, ?_⟩, ?_, rfl, ?_⟩
  · rw [Ne, ← isGen_iff, Bool.not_eq_true]
    simpa using (List.mem_filter.mp hentry).2
  · exact find?_moveBehind_of_rest moved st.sysPath
  · exact rest_find?_eq_none moved st.sysPath
  · exact ⟨_, rfl, fun has entry => find?_extendedPath h gen path, extendedPath_eq h gen path,
      mem_extendedPath_iff h gen path⟩
  · rw [extendedPath_idem]
    exact congrArg (Interpreter.mk · _) (moveBehind_idem moved st.sysPath)

/-- A host on which the generated tree has two spellings and one entry cannot be
resolved. -/
def aliasHost : Host Unit where
  gen := .ok "/repo/python/gen"
  resolve entry :=
    if entry = "gen" then .ok "/repo/python/gen"
    else if entry = "loop" then .error ()
    else .ok entry
  isOSError _ := true
  load _ := .ok ["/site/google/protobuf"]
  isDir _ := true

/-- Both spellings move behind the rest, in their order. -/
theorem aliasHost_moves_gen :
    ((registerGeneratedWkt aliasHost).exec
        ⟨["gen", "/site", "loop", "/repo/python/gen", "/lib"], none⟩).state.sysPath =
      ["/site", "loop", "/lib", "gen", "/repo/python/gen"] :=
  (registerGeneratedWkt_moves_gen aliasHost
    ⟨["gen", "/site", "loop", "/repo/python/gen", "/lib"], none⟩ "/repo/python/gen"
    "/repo/python/gen" ["/site/google/protobuf"] rfl (by decide) (fun _ _ _ _ => rfl)
    rfl).2.2.2.1.trans (by decide)

end Python

end ConnectExamples
