import Mathlib.Data.List.Basic

/-!
# Readers of bytes

A reader takes a value from the front of some bytes, or fails. `Reads r bs a` says that
it reads `a` from `bs` whatever follows, and a reader is `Prefixed` if all it ever
reads, it reads like this: it neither looks ahead nor puts bytes back. Both notions are
closed under the operations of the monad. `Drains step drain` says that `drain` repeats
`step` until no byte is left; what is known of a step then holds of the whole.
-/

namespace Wire

abbrev Bytes := List UInt8

theorem exists_of_bind_eq_ok {ε α β : Type} {x : Except ε α} {f : α → Except ε β} {y : β}
    (h : (x >>= f) = .ok y) : ∃ a, x = .ok a ∧ f a = .ok y := by
  cases x with
  | error e => cases h
  | ok a => exact ⟨a, rfl, h⟩

theorem exists_of_map_eq_ok {ε α β : Type} {x : Except ε α} {f : α → β} {y : β}
    (h : x.map f = .ok y) : ∃ a, x = .ok a ∧ f a = y := by
  cases x with
  | error e => cases h
  | ok a =>
      cases h
      exact ⟨a, rfl, rfl⟩

structure Reader (ε α : Type) where
  read : Bytes → Except ε (α × Bytes)

namespace Reader

variable {ε α β M N : Type}

instance : Monad (Reader ε) where
  pure a := ⟨fun b => .ok (a, b)⟩
  bind r f := ⟨fun b =>
    match r.read b with
    | .ok (a, rest) => (f a).read rest
    | .error e => .error e⟩

def fail (e : ε) : Reader ε α := ⟨fun _ => .error e⟩

/-- A reader that takes no byte. -/
def ofExcept (x : Except ε α) : Reader ε α := ⟨fun b => x.map fun a => (a, b)⟩

@[simp] theorem read_pure (a : α) (b : Bytes) : (pure a : Reader ε α).read b = .ok (a, b) := rfl

theorem read_bind_of_ok {r : Reader ε α} {f : α → Reader ε β} {b rest : Bytes} {a : α}
    (h : r.read b = .ok (a, rest)) : (r >>= f).read b = (f a).read rest := by
  change (match r.read b with
    | .ok (a, rest) => (f a).read rest
    | .error e => .error e) = (f a).read rest
  rw [h]

theorem read_bind_of_error {r : Reader ε α} {f : α → Reader ε β} {b : Bytes} {e : ε}
    (h : r.read b = .error e) : (r >>= f).read b = .error e := by
  change (match r.read b with
    | .ok (a, rest) => (f a).read rest
    | .error e => .error e) = .error e
  rw [h]

theorem read_bind_eq_ok {r : Reader ε α} {f : α → Reader ε β} {b rest : Bytes} {x : β}
    (h : (r >>= f).read b = .ok (x, rest)) :
    ∃ a middle, r.read b = .ok (a, middle) ∧ (f a).read middle = .ok (x, rest) := by
  cases hr : r.read b with
  | error e =>
      rw [read_bind_of_error hr] at h
      cases h
  | ok p =>
      rw [read_bind_of_ok hr] at h
      exact ⟨p.1, p.2, rfl, h⟩

@[simp] theorem read_ofExcept_bind (a : α) (f : α → Reader ε β) (b : Bytes) :
    (ofExcept (.ok a) >>= f).read b = (f a).read b := rfl

theorem read_ofExcept_eq_ok {y : Except ε α} {a : α} {b rest : Bytes}
    (h : (ofExcept y).read b = .ok (a, rest)) : y = .ok a ∧ rest = b := by
  cases y with
  | error e => cases h
  | ok a' =>
      cases h
      exact ⟨rfl, rfl⟩

/-- Readers that differ in the value of what they read last. -/
theorem read_bind_map {γ : Type} {r : Reader ε α} {f : α → Reader ε β} {g : α → Reader ε γ}
    {φ : β → γ} (h : ∀ a b, (g a).read b = ((f a).read b).map fun x => (φ x.1, x.2))
    (b : Bytes) : (r >>= g).read b = ((r >>= f).read b).map fun x => (φ x.1, x.2) := by
  cases hr : r.read b with
  | error e =>
      rw [read_bind_of_error hr, read_bind_of_error hr]
      rfl
  | ok p => rw [read_bind_of_ok hr, read_bind_of_ok hr, h]

/-- The reader reads `a` from `bs`, whatever follows. -/
def Reads (r : Reader ε α) (bs : Bytes) (a : α) : Prop :=
  ∀ rest, r.read (bs ++ rest) = .ok (a, rest)

/-- What the reader reads, it reads from the front, whatever follows. -/
def Prefixed (r : Reader ε α) : Prop :=
  ∀ b a rest, r.read b = .ok (a, rest) → ∃ bs, b = bs ++ rest ∧ r.Reads bs a

/-- The reader never reads without taking a byte. -/
def Consuming (r : Reader ε α) : Prop :=
  ∀ b a rest, r.read b = .ok (a, rest) → ∃ bs, b = bs ++ rest ∧ bs ≠ [] ∧ r.Reads bs a

section Rules

variable {r : Reader ε α} {f : α → Reader ε β} {bs bs' : Bytes} {a : α} {x : β}

theorem Reads.pure (a : α) : (pure a : Reader ε α).Reads [] a := fun _ => rfl

theorem Reads.ofExcept (a : α) : (ofExcept (.ok a) : Reader ε α).Reads [] a := fun _ => rfl

theorem Reads.bind (h : r.Reads bs a) (h' : (f a).Reads bs' x) :
    (r >>= f).Reads (bs ++ bs') x := by
  intro rest
  rw [List.append_assoc, read_bind_of_ok (h (bs' ++ rest)), h' rest]

theorem Consuming.prefixed (h : r.Consuming) : r.Prefixed := by
  intro b a rest hr
  obtain ⟨bs, hb, -, hreads⟩ := h b a rest hr
  exact ⟨bs, hb, hreads⟩

theorem Prefixed.pure (a : α) : (pure a : Reader ε α).Prefixed := by
  intro b a' rest h
  cases h
  exact ⟨[], rfl, Reads.pure a⟩

theorem Prefixed.fail (e : ε) : (fail e : Reader ε α).Prefixed := by
  intro b a rest h
  cases h

theorem Prefixed.ofExcept (y : Except ε α) : (ofExcept y).Prefixed := by
  intro b a rest h
  cases y with
  | error e => cases h
  | ok a' =>
      cases h
      exact ⟨[], rfl, Reads.ofExcept a⟩

theorem Prefixed.bind (h : r.Prefixed) (hf : ∀ a, (f a).Prefixed) : (r >>= f).Prefixed := by
  intro b x rest hb
  obtain ⟨a, middle, hr, hfa⟩ := read_bind_eq_ok hb
  obtain ⟨bs, rfl, hreads⟩ := h b a middle hr
  obtain ⟨bs', rfl, hreads'⟩ := hf a middle x rest hfa
  exact ⟨bs ++ bs', (List.append_assoc ..).symm, hreads.bind hreads'⟩

theorem Consuming.bind (h : r.Consuming) (hf : ∀ a, (f a).Prefixed) : (r >>= f).Consuming := by
  intro b x rest hb
  obtain ⟨a, middle, hr, hfa⟩ := read_bind_eq_ok hb
  obtain ⟨bs, rfl, hne, hreads⟩ := h b a middle hr
  obtain ⟨bs', rfl, hreads'⟩ := hf a middle x rest hfa
  exact ⟨bs ++ bs', (List.append_assoc ..).symm, List.append_ne_nil_of_left_ne_nil hne bs',
    hreads.bind hreads'⟩

end Rules

section Drain

/-- The function repeats the step until no byte is left. -/
structure Drains (step : M → Reader ε M) (drain : M → Bytes → Except ε M) : Prop where
  nil : ∀ m, drain m [] = .ok m
  step_ok : ∀ m b m' rest, b ≠ [] → (step m).read b = .ok (m', rest) → drain m b = drain m' rest
  step_error : ∀ m b e, b ≠ [] → (step m).read b = .error e → drain m b = .error e

/-- `step`, repeated at most `fuel` times. -/
def drainWith (step : M → Reader ε M) : ℕ → M → Bytes → Except ε M
  | 0, m, _ => .ok m
  | fuel + 1, m, b =>
      if b = [] then .ok m
      else
        match (step m).read b with
        | .ok (m', rest) => drainWith step fuel m' rest
        | .error e => .error e

def drain (step : M → Reader ε M) (m : M) (b : Bytes) : Except ε M := drainWith step b.length m b

variable {step : M → Reader ε M} {run : M → Bytes → Except ε M}

theorem Consuming.length_lt {r : Reader ε α} (h : r.Consuming) {b rest : Bytes} {a : α}
    (hr : r.read b = .ok (a, rest)) : rest.length < b.length := by
  obtain ⟨bs, rfl, hne, -⟩ := h b a rest hr
  have hpos : 0 < bs.length := List.length_pos_iff.mpr hne
  rw [List.length_append]
  omega

theorem drainWith_eq (hstep : ∀ m, (step m).Consuming) :
    ∀ fuel fuel' m b, b.length ≤ fuel → b.length ≤ fuel' →
      drainWith step fuel m b = drainWith step fuel' m b := by
  intro fuel
  induction fuel with
  | zero =>
      intro fuel' m b hb _
      obtain rfl := List.length_eq_zero_iff.mp (Nat.le_zero.mp hb)
      cases fuel' <;> rfl
  | succ fuel ih =>
      intro fuel' m b hb hb'
      by_cases hnil : b = []
      · subst hnil
        cases fuel' <;> rfl
      · have hpos : 0 < b.length := List.length_pos_iff.mpr hnil
        obtain ⟨fuel', rfl⟩ : ∃ n, fuel' = n + 1 := ⟨fuel' - 1, by omega⟩
        simp only [drainWith, if_neg hnil]
        cases hr : (step m).read b with
        | error e => rfl
        | ok p =>
            have hlt := (hstep m).length_lt hr
            exact ih fuel' p.1 p.2 (by omega) (by omega)

/-- A step that takes bytes away can be repeated until none is left. -/
theorem drains_drain (hstep : ∀ m, (step m).Consuming) : Drains step (drain step) where
  nil m := rfl
  step_ok m b m' rest hne hr := by
    have hpos : 0 < b.length := List.length_pos_iff.mpr hne
    have hlt := (hstep m).length_lt hr
    obtain ⟨n, hn⟩ : ∃ n, b.length = n + 1 := ⟨b.length - 1, by omega⟩
    rw [drain, hn, drainWith, if_neg hne, hr]
    exact drainWith_eq hstep n rest.length m' rest (by omega) (Nat.le_refl _)
  step_error m b e hne hr := by
    have hpos : 0 < b.length := List.length_pos_iff.mpr hne
    obtain ⟨n, hn⟩ : ∃ n, b.length = n + 1 := ⟨b.length - 1, by omega⟩
    rw [drain, hn, drainWith, if_neg hne, hr]

/-- The first step of a whole that succeeds. -/
theorem Drains.first (h : Drains step run) {m m' : M} {b : Bytes} (hne : b ≠ [])
    (hrun : run m b = .ok m') :
    ∃ m₁ rest, (step m).read b = .ok (m₁, rest) ∧ run m₁ rest = .ok m' := by
  cases hr : (step m).read b with
  | error e =>
      rw [h.step_error m b e hne hr] at hrun
      cases hrun
  | ok p =>
      rw [h.step_ok m b p.1 p.2 hne hr] at hrun
      exact ⟨p.1, p.2, rfl, hrun⟩

variable (h : Drains step run) (hstep : ∀ m, (step m).Consuming)

include h hstep

/-- Induction over the steps of a whole that succeeds. -/
theorem Drains.induction {motive : M → Bytes → M → Prop} (hnil : ∀ m, motive m [] m)
    (hcons : ∀ m bs m₁ rest m', bs ≠ [] → (step m).Reads bs m₁ → run m₁ rest = .ok m' →
      motive m₁ rest m' → motive m (bs ++ rest) m')
    {m m' : M} {b : Bytes} (hrun : run m b = .ok m') : motive m b m' := by
  induction hn : b.length using Nat.strongRecOn generalizing m b with
  | _ n ih =>
      by_cases hne : b = []
      · subst hne
        rw [h.nil] at hrun
        cases hrun
        exact hnil _
      · obtain ⟨m₁, rest, hr, hrest⟩ := h.first hne hrun
        obtain ⟨bs, rfl, hbs, hreads⟩ := hstep m b m₁ rest hr
        have hlt := (hstep m).length_lt hr
        exact hcons m bs m₁ rest m' hbs hreads hrest (ih rest.length (hn ▸ hlt) hrest rfl)

/-- What follows is read after what comes first. -/
theorem Drains.append {m m' : M} {b : Bytes} (hrun : run m b = .ok m') (c : Bytes) :
    run m (b ++ c) = run m' c := by
  refine h.induction hstep (motive := fun m b m' => run m (b ++ c) = run m' c) (fun m => rfl)
    (fun m bs m₁ rest m' hbs hreads _ ih => ?_) hrun
  rw [List.append_assoc, h.step_ok m _ m₁ (rest ++ c) (List.append_ne_nil_of_left_ne_nil hbs _)
    (hreads _), ih]

/-- Two ways of reading, of which one step forgets or adds what the other keeps, do so as
a whole. -/
theorem Drains.map {step' : N → Reader ε N} {run' : N → Bytes → Except ε N}
    (h' : Drains step' run') {f : M → N}
    (hmap : ∀ m b, (step' (f m)).read b = ((step m).read b).map fun x => (f x.1, x.2))
    (m : M) (b : Bytes) :
    run' (f m) b = (run m b).map f := by
  induction hn : b.length using Nat.strongRecOn generalizing m b with
  | _ n ih =>
      by_cases hne : b = []
      · subst hne
        rw [h.nil, h'.nil]
        rfl
      · have hb := hmap m b
        cases hr : (step m).read b with
        | error e =>
            rw [hr] at hb
            rw [h.step_error m b e hne hr, h'.step_error (f m) b e hne hb]
            rfl
        | ok p =>
            rw [hr] at hb
            have hlt := (hstep m).length_lt hr
            rw [h.step_ok m b p.1 p.2 hne hr, h'.step_ok (f m) b (f p.1) p.2 hne hb]
            exact ih p.2.length (hn ▸ hlt) p.1 p.2 rfl

/-- Two ways of reading whose steps agree wherever both succeed agree as a whole. -/
theorem Drains.agree {step' : N → Reader ε N} {run' : N → Bytes → Except ε N}
    (h' : Drains step' run') {rel : M → N → Prop}
    (hrel : ∀ m n b m₁ n₁ rest rest', rel m n → (step m).read b = .ok (m₁, rest) →
      (step' n).read b = .ok (n₁, rest') → rel m₁ n₁ ∧ rest = rest')
    {m m' : M} {n n' : N} {b : Bytes} (hmn : rel m n) (hrun : run m b = .ok m')
    (hrun' : run' n b = .ok n') : rel m' n' := by
  induction hlen : b.length using Nat.strongRecOn generalizing m n b with
  | _ l ih =>
      by_cases hne : b = []
      · subst hne
        rw [h.nil] at hrun
        rw [h'.nil] at hrun'
        cases hrun
        cases hrun'
        exact hmn
      · obtain ⟨m₁, rest, hr, hrest⟩ := h.first hne hrun
        obtain ⟨n₁, rest', hr', hrest'⟩ := h'.first hne hrun'
        obtain ⟨hmn₁, rfl⟩ := hrel m n b m₁ n₁ rest rest' hmn hr hr'
        have hlt := (hstep m).length_lt hr
        exact ih rest.length (hlen ▸ hlt) hmn₁ hrest hrest' rfl

end Drain

end Reader

end Wire
