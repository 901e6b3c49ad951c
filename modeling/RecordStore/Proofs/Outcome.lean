/-!
# Outcomes

How computations that may fail go on after a success and after a failure.
-/

namespace RecordStore

variable {ε α β γ : Type}

@[simp]
theorem ok_bind (a : α) (f : α → Except ε β) : (Except.ok a >>= f) = f a := rfl

@[simp]
theorem error_bind (e : ε) (f : α → Except ε β) : (Except.error e >>= f) = .error e := rfl

@[simp]
theorem ok_map (a : α) (f : α → β) : f <$> (Except.ok a : Except ε α) = .ok (f a) := rfl

@[simp]
theorem pure_ok (a : α) : (pure a : Except ε α) = .ok a := rfl

/-- The failure of a computation, if it fails. -/
def failure? : Except ε α → Option ε
  | .error e => some e
  | .ok _ => none

theorem failure?_eq_some_iff {x : Except ε α} {e : ε} : failure? x = some e ↔ x = .error e := by
  cases x <;> simp [failure?]

/-- A computation that succeeds on every element succeeds on the list. -/
theorem mapM_ok {f : α → Except ε β} {g : α → β} {items : List α}
    (h : ∀ a ∈ items, f a = .ok (g a)) : items.mapM f = .ok (items.map g) := by
  induction items with
  | nil => rfl
  | cons a rest ih =>
    rw [List.mapM_cons, h a List.mem_cons_self, ih fun b hb => h b (List.mem_cons_of_mem _ hb)]
    rfl

/-- A computation on a list whose results are made from those of another one. -/
theorem mapM_eq_map {f : α → Except ε γ} {g : α → Except ε β} {k : β → γ} {items : List α}
    (h : ∀ a ∈ items, f a = k <$> g a) : items.mapM f = List.map k <$> items.mapM g := by
  induction items with
  | nil => rfl
  | cons a rest ih =>
    rw [List.mapM_cons, List.mapM_cons, h a List.mem_cons_self,
      ih fun b hb => h b (List.mem_cons_of_mem _ hb)]
    cases g a with
    | error e => rfl
    | ok b => cases rest.mapM g <;> rfl

theorem failure?_ok (a : α) (b : β) :
    failure? (.ok a : Except ε α) = failure? (.ok b : Except ε β) := rfl

/-- Computations that fail alike, and go on in ways that fail alike, fail alike. -/
theorem failure?_bind {δ : Type} {x : Except ε α} {y : Except ε β} {f : α → Except ε γ}
    {g : β → Except ε δ} (h : failure? x = failure? y)
    (hfg : ∀ a b, failure? (f a) = failure? (g b)) : failure? (x >>= f) = failure? (y >>= g) := by
  cases x with
  | ok a => cases y with
    | ok b => exact hfg a b
    | error e => cases h
  | error e => cases y with
    | ok b => cases h
    | error e' => exact h

theorem failure?_mapM {f : α → Except ε β} {g : α → Except ε γ}
    (h : ∀ a, failure? (f a) = failure? (g a)) (items : List α) :
    failure? (items.mapM f) = failure? (items.mapM g) := by
  induction items with
  | nil => rfl
  | cons a rest ih =>
    rw [List.mapM_cons, List.mapM_cons]
    exact failure?_bind (h a) fun _ _ => failure?_bind ih fun _ _ => failure?_ok _ _

theorem exists_ok_of_failure? {x : Except ε α} (h : failure? x = none) : ∃ a, x = .ok a := by
  cases x with
  | ok a => exact ⟨a, rfl⟩
  | error e => cases h

theorem bind_eq_ok {x : Except ε α} {f : α → Except ε β} {b : β} :
    (x >>= f) = .ok b ↔ ∃ a, x = .ok a ∧ f a = .ok b := by
  cases x <;> simp

theorem bind_eq_error {x : Except ε α} {f : α → Except ε β} {e : ε} :
    (x >>= f) = .error e ↔ x = .error e ∨ ∃ a, x = .ok a ∧ f a = .error e := by
  cases x <;> simp

/-- What a computation on every element of a list needs and gives, if one element needs `p` and gives
what `g` says. -/
theorem mapM_eq_ok_iff {f : α → Except ε β} {p : α → Prop} {g : α → β}
    (h : ∀ a b, f a = .ok b ↔ p a ∧ g a = b) {items : List α} {results : List β} :
    items.mapM f = .ok results ↔ (∀ a ∈ items, p a) ∧ items.map g = results := by
  constructor
  · intro hresults
    induction items generalizing results with
    | nil =>
      cases hresults
      exact ⟨fun a ha => absurd ha List.not_mem_nil, rfl⟩
    | cons a rest ih =>
      rw [List.mapM_cons] at hresults
      obtain ⟨b, hb, hresults⟩ := bind_eq_ok.1 hresults
      obtain ⟨others, hothers, hresults⟩ := bind_eq_ok.1 hresults
      cases hresults
      obtain ⟨hrest, hmap⟩ := ih hothers
      obtain ⟨ha, hg⟩ := (h a b).1 hb
      exact ⟨List.forall_mem_cons.2 ⟨ha, hrest⟩, by rw [List.map_cons, hg, hmap]⟩
  · rintro ⟨hitems, rfl⟩
    exact mapM_ok fun a ha => (h a (g a)).2 ⟨hitems a ha, rfl⟩

/-- A failure on a list is one on an element of it. -/
theorem exists_of_mapM_error {f : α → Except ε β} {items : List α} {e : ε}
    (h : items.mapM f = .error e) : ∃ a ∈ items, f a = .error e := by
  induction items with
  | nil => cases h
  | cons a rest ih =>
    rw [List.mapM_cons] at h
    rcases bind_eq_error.1 h with h | ⟨b, -, h⟩
    · exact ⟨a, List.mem_cons_self, h⟩
    rcases bind_eq_error.1 h with h | ⟨others, -, h⟩
    · obtain ⟨c, hc, h⟩ := ih h
      exact ⟨c, List.mem_cons_of_mem _ hc, h⟩
    · cases h

/-- What the success on an element means for it, the successes on a list mean for all of its
elements. -/
theorem forall_mapM_iff {f : α → Except ε β} {p : β → Prop} {q : α → Prop} {items : List α}
    {results : List β} (h : items.mapM f = .ok results)
    (hpq : ∀ a ∈ items, ∀ b, f a = .ok b → (p b ↔ q a)) :
    (∀ b ∈ results, p b) ↔ ∀ a ∈ items, q a := by
  induction items generalizing results with
  | nil =>
    cases h
    exact ⟨fun _ a ha => absurd ha List.not_mem_nil, fun _ b hb => absurd hb List.not_mem_nil⟩
  | cons a rest ih =>
    rw [List.mapM_cons] at h
    obtain ⟨b, hb, h⟩ := bind_eq_ok.1 h
    obtain ⟨others, hothers, h⟩ := bind_eq_ok.1 h
    cases h
    rw [List.forall_mem_cons, List.forall_mem_cons, hpq a List.mem_cons_self b hb,
      ih hothers fun c hc => hpq c (List.mem_cons_of_mem _ hc)]

/-- What each success on an element of a list has, all results on the list have. -/
theorem forall_of_mapM_ok {f : α → Except ε β} {p : β → Prop} {items : List α} {results : List β}
    (h : items.mapM f = .ok results) (hp : ∀ a ∈ items, ∀ b, f a = .ok b → p b) :
    ∀ b ∈ results, p b :=
  (forall_mapM_iff h fun a ha b hb => iff_true_intro (hp a ha b hb)).2 fun _ _ => trivial

/-- A list has no results if an element has none. -/
theorem mapM_eq_none_iff {f : α → Option β} {items : List α} :
    items.mapM f = none ↔ ∃ a ∈ items, f a = none := by
  induction items with
  | nil => simp
  | cons a rest ih =>
    have split : (∃ b ∈ a :: rest, f b = none) ↔ f a = none ∨ rest.mapM f = none := by simp [ih]
    rw [List.mapM_cons, split]
    cases f a with
    | none => simp
    | some b => cases rest.mapM f <;> simp

end RecordStore
