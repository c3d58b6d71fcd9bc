import ConnectExamples.Python.Bootstrap

/-!
# Importing the Python package again

An import of the package that raised can be tried again, on a host that has changed in
the meantime. The first run that gets as far as importing `google.protobuf` decides what
becomes of `sys.path`: if the import succeeds, the generated tree is behind everything else
for good, and if it fails, the generated tree is lost for good.
-/

namespace ConnectExamples

namespace Python

open SearchPath Tracing

variable {E : Type}

/-- The package is imported on one host after the other. -/
def importOn (hosts : List (Host E)) (st : Interpreter) : Interpreter :=
  hosts.foldl (fun st h => ((registerGeneratedWkt h).exec st).state) st

/-- The run gets as far as taking entries out of `sys.path`. -/
def Reaches (h : Host E) (st : Interpreter) : Prop :=
  (∃ gen genResolved, h.gen = .ok gen ∧ h.resolve gen = .ok genResolved) ∧
    ∀ entry ∈ st.sysPath, raises h entry = false

/-- On the host, of the entries that do not stop the function, those resolve to the
generated tree that `moved` says. -/
def Resolves (moved : String → Bool) (entries : List String) (h : Host E) : Prop :=
  ∀ gen genResolved, h.gen = .ok gen → h.resolve gen = .ok genResolved →
    ∀ entry ∈ entries, raises h entry = false → isGen h genResolved entry = moved entry

section Run

variable {h : Host E} {st : Interpreter} {moved : String → Bool}

/-- A run that does not get there changes nothing. -/
theorem state_of_not_reaches (hnot : ¬ Reaches h st) :
    ((registerGeneratedWkt h).exec st).state = st := by
  cases hgen : h.gen with
  | error e => rw [exec_of_gen_error hgen]
  | ok gen =>
      cases hresolve : h.resolve gen with
      | error e => rw [exec_of_resolve_error hgen hresolve]
      | ok genResolved =>
          have hraises : ∃ entry ∈ st.sysPath, raises h entry = true := by
            by_contra hnone
            refine hnot ⟨⟨gen, genResolved, hgen, hresolve⟩, fun entry hentry => ?_⟩
            rw [← Bool.not_eq_true]
            exact fun hraise => hnone ⟨entry, hentry, hraise⟩
          obtain ⟨e, hexec⟩ := exec_of_raises hgen hresolve hraises
          rw [hexec]

/-- What a run that gets there does to `sys.path`. -/
theorem state_of_reaches (hreaches : Reaches h st) (hmoved : Resolves moved st.sysPath h) :
    let r := ((registerGeneratedWkt h).exec st).state
    match imported h { st with sysPath := st.sysPath.filter fun entry => !moved entry } with
    | .ok _ => r.sysPath = moveBehind moved st.sysPath ∧ r.protobuf.isSome
    | .error _ => r = { st with sysPath := st.sysPath.filter fun entry => !moved entry } := by
  intro r
  obtain ⟨⟨gen, genResolved, hgen, hresolve⟩, hentries⟩ := hreaches
  have hsame : ∀ entry ∈ st.sysPath, isGen h genResolved entry = moved entry :=
    fun entry hentry => hmoved gen genResolved hgen hresolve entry hentry (hentries entry hentry)
  have hkept : kept h genResolved st.sysPath = st.sysPath.filter fun entry => !moved entry :=
    List.filter_congr fun entry hentry => by rw [hsame entry hentry]
  have hbehind : moveBehind (isGen h genResolved) st.sysPath = moveBehind moved st.sysPath :=
    congrArg₂ (· ++ ·) hkept (List.filter_congr hsame)
  cases himport : imported h { st with sysPath := kept h genResolved st.sysPath } with
  | ok path =>
      have hexec := exec_of_import_ok hgen hresolve hentries himport
      rw [← hkept, himport]
      have hr : r = _ := congrArg Run.state hexec
      rw [hr]
      exact ⟨hbehind, rfl⟩
  | error e =>
      have hexec := exec_of_import_error hgen hresolve hentries himport
      rw [← hkept, himport]
      simp only [r, hexec]

end Run

/-- The path cannot change any more: the generated tree is last, and `google.protobuf` was
imported or the generated tree is gone. -/
def Final (moved : String → Bool) (st : Interpreter) : Prop :=
  moveBehind moved st.sysPath = st.sysPath ∧
    (st.protobuf.isSome ∨ (st.sysPath.filter fun entry => !moved entry) = st.sysPath)

section Runs

variable {moved : String → Bool} {st : Interpreter}

theorem final_step {h : Host E} (hst : Final moved st) (hmoved : Resolves moved st.sysPath h) :
    ((registerGeneratedWkt h).exec st).state.sysPath = st.sysPath ∧
      Final moved ((registerGeneratedWkt h).exec st).state := by
  by_cases hreaches : Reaches h st
  · have hstate := state_of_reaches hreaches hmoved
    cases himport : imported h
        { st with sysPath := st.sysPath.filter fun entry => !moved entry } with
    | ok path =>
        rw [himport] at hstate
        obtain ⟨hpath, hprotobuf⟩ := hstate
        rw [hst.1] at hpath
        refine ⟨hpath, ?_, .inl hprotobuf⟩
        rw [hpath, hst.1]
    | error e =>
        rw [himport] at hstate
        obtain ⟨hbehind, hsome | hfilter⟩ := hst
        · obtain ⟨path, hpath⟩ := Option.isSome_iff_exists.mp hsome
          simp only [imported, hpath] at himport
          cases himport
        · rw [hfilter] at hstate
          simp only at hstate
          rw [hstate]
          exact ⟨rfl, hbehind, .inr hfilter⟩
  · rw [state_of_not_reaches hreaches]
    exact ⟨rfl, hst⟩

theorem final_importOn {hosts : List (Host E)} (hst : Final moved st)
    (hmoved : ∀ h ∈ hosts, Resolves moved st.sysPath h) :
    (importOn hosts st).sysPath = st.sysPath := by
  induction hosts generalizing st with
  | nil => rfl
  | cons h hosts ih =>
      obtain ⟨hpath, hfinal⟩ := final_step hst (hmoved h List.mem_cons_self)
      have htail := ih hfinal fun g hg => by
        rw [hpath]
        exact hmoved g (List.mem_cons_of_mem h hg)
      exact htail.trans hpath

theorem importOn_of_not_reaches {hosts : List (Host E)} (hnot : ∀ h ∈ hosts, ¬ Reaches h st) :
    importOn hosts st = st := by
  induction hosts with
  | nil => rfl
  | cons h hosts ih =>
      have hfirst := state_of_not_reaches (hnot h List.mem_cons_self)
      have htail := ih fun g hg => hnot g (List.mem_cons_of_mem h hg)
      rw [importOn, List.foldl_cons, hfirst]
      exact htail

/-- The first run that gets as far as the import decides. -/
theorem importOn_of_reaches {before later : List (Host E)} {h : Host E}
    (hbefore : ∀ g ∈ before, ¬ Reaches g st) (hreaches : Reaches h st)
    (hmoved : ∀ g ∈ h :: later, Resolves moved st.sysPath g) :
    (importOn (before ++ h :: later) st).sysPath =
      match imported h { st with sysPath := st.sysPath.filter fun entry => !moved entry } with
      | .ok _ => moveBehind moved st.sysPath
      | .error _ => st.sysPath.filter fun entry => !moved entry := by
  have hrun : importOn (before ++ h :: later) st =
      importOn later ((registerGeneratedWkt h).exec st).state := by
    have hfirst := importOn_of_not_reaches hbefore
    rw [importOn] at hfirst ⊢
    rw [List.foldl_append, hfirst]
    rfl
  have hsub {entries : List String} (hentries : entries ⊆ st.sysPath) :
      ∀ g ∈ later, Resolves moved entries g :=
    fun g hg gen genResolved hgen hresolve entry hentry =>
      hmoved g (List.mem_cons_of_mem h hg) gen genResolved hgen hresolve entry (hentries hentry)
  have hstate := state_of_reaches hreaches (hmoved h List.mem_cons_self)
  rw [hrun]
  cases himport : imported h
      { st with sysPath := st.sysPath.filter fun entry => !moved entry } with
  | ok path =>
      rw [himport] at hstate
      obtain ⟨hpath, hprotobuf⟩ := hstate
      refine (final_importOn ⟨?_, .inl hprotobuf⟩ (hsub ?_)).trans hpath
      · rw [hpath, moveBehind_idem]
      · rw [hpath]
        exact (moveBehind_perm moved st.sysPath).subset
  | error e =>
      rw [himport] at hstate
      simp only at hstate
      rw [hstate]
      refine final_importOn ⟨?_, .inr ?_⟩ (hsub ?_)
      · simp [moveBehind, List.filter_filter]
      · simp [List.filter_filter]
      · exact List.filter_subset_self _

/-- Importing the package again and again, on hosts that may change: what is not generated
stays on `sys.path` in its order, and the generated tree is left where it was, behind
everything else, or lost. The first run that gets as far as the import decides which:
later runs neither bring a lost tree back nor move it again. -/
theorem importOn_decides (hosts : List (Host E)) (st : Interpreter) (moved : String → Bool)
    (hmoved : ∀ h ∈ hosts, Resolves moved st.sysPath h) :
    let rest := st.sysPath.filter fun entry => !moved entry
    ((importOn hosts st).sysPath.filter fun entry => !moved entry) = rest ∧
      ((∀ h ∈ hosts, ¬ Reaches h st) → importOn hosts st = st) ∧
      ∀ before h later, hosts = before ++ h :: later → (∀ g ∈ before, ¬ Reaches g st) →
        Reaches h st →
          ((∃ path, imported h { st with sysPath := rest } = .ok path) →
            (importOn hosts st).sysPath = moveBehind moved st.sysPath) ∧
          ((∃ e, imported h { st with sysPath := rest } = .error e) →
            (importOn hosts st).sysPath = rest) := by
  intro rest
  have hdecides (before : List (Host E)) (h : Host E) (later : List (Host E))
      (hhosts : hosts = before ++ h :: later) (hbefore : ∀ g ∈ before, ¬ Reaches g st)
      (hreaches : Reaches h st) : (importOn hosts st).sysPath =
        match imported h { st with sysPath := rest } with
        | .ok _ => moveBehind moved st.sysPath
        | .error _ => rest := by
    subst hhosts
    exact importOn_of_reaches hbefore hreaches fun g hg => hmoved g (List.mem_append_right _ hg)
  refine ⟨?_, importOn_of_not_reaches, fun before h later hhosts hbefore hreaches => ?_⟩
  · classical
    cases hfind : hosts.find? fun h => decide (Reaches h st) with
    | none =>
        have hnot : ∀ h ∈ hosts, ¬ Reaches h st := by simpa using hfind
        rw [importOn_of_not_reaches hnot]
    | some h =>
        obtain ⟨hreaches, before, later, hhosts, hbefore⟩ :=
          List.find?_eq_some_iff_append.mp hfind
        have hpath := hdecides before h later hhosts (by simpa using hbefore)
          (by simpa using hreaches)
        rw [hpath]
        cases imported h { st with sysPath := rest } with
        | ok path => exact filter_not_moveBehind moved st.sysPath
        | error e => simp [rest, List.filter_filter]
  · have hpath := hdecides before h later hhosts hbefore hreaches
    constructor
    · rintro ⟨path, himport⟩
      rw [hpath, himport]
    · rintro ⟨e, himport⟩
      rw [hpath, himport]

theorem resolves_withoutProtobuf (load : List String → Except Unit (List String))
    (entries : List String) :
    Resolves (· == "/repo/python/gen") entries { withoutProtobuf with load } := by
  intro gen genResolved hgen hresolve entry _ _
  cases hgen
  cases hresolve
  rfl

/-- On the host without `google.protobuf` the import fails; when it has been installed, the
generated tree is gone already. -/
theorem importOn_decides_lost :
    (importOn [withoutProtobuf, { withoutProtobuf with load := fun _ => .ok [] }]
      ⟨["/repo/python/gen", "/usr/lib/python3"], none⟩).sysPath = ["/usr/lib/python3"] := by
  have hmoved : ∀ h ∈ [withoutProtobuf, { withoutProtobuf with load := fun _ => .ok [] }],
      Resolves (· == "/repo/python/gen") ["/repo/python/gen", "/usr/lib/python3"] h := by
    intro h hh
    simp only [List.mem_cons, List.not_mem_nil, or_false] at hh
    rcases hh with rfl | rfl
    · exact resolves_withoutProtobuf _ _
    · exact resolves_withoutProtobuf _ _
  obtain ⟨-, -, hfirst⟩ := importOn_decides _
    ⟨["/repo/python/gen", "/usr/lib/python3"], none⟩ _ hmoved
  have hreaches : Reaches withoutProtobuf ⟨["/repo/python/gen", "/usr/lib/python3"], none⟩ :=
    ⟨⟨_, _, rfl, rfl⟩, fun _ _ => rfl⟩
  exact (hfirst [] withoutProtobuf _ rfl (by simp) hreaches).2 ⟨(), rfl⟩

end Runs

end Python

end ConnectExamples
