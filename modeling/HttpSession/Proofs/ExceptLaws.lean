import Mathlib.Data.List.Basic

/-!
# Laws of `Except`

A chain of computations succeeds exactly if each of them does. Lists are read element by element, and a
fold keeps what each of its steps keeps.
-/

namespace HttpSession

variable {ε α β σ : Type}

theorem bind_ok_iff {reading : Except ε α} {f : α → Except ε β} {b : β} :
    (reading >>= f) = .ok b ↔ ∃ a, reading = .ok a ∧ f a = .ok b := by
  cases reading <;> simp [bind, Except.bind]

theorem map_ok_iff {reading : Except ε α} {f : α → β} {b : β} :
    reading.map f = .ok b ↔ ∃ a, reading = .ok a ∧ f a = b := by
  cases reading <;> simp [Except.map]

theorem exists_of_isOk {reading : Except ε α} (h : reading.isOk = true) : ∃ a, reading = .ok a := by
  cases reading with
  | error e => cases h
  | ok a => exact ⟨a, rfl⟩

theorem exists_of_mem_mapM {f : α → Except ε β} {as : List α} {bs : List β} {b : β}
    (h : as.mapM f = .ok bs) (hb : b ∈ bs) : ∃ a ∈ as, f a = .ok b := by
  induction as generalizing bs with
  | nil =>
    obtain rfl := Except.ok.inj h
    cases hb
  | cons a rest ih =>
    rw [List.mapM_cons] at h
    obtain ⟨b', hb', h⟩ := bind_ok_iff.mp h
    obtain ⟨bs', hbs', h⟩ := bind_ok_iff.mp h
    obtain rfl := Except.ok.inj h
    rcases List.mem_cons.mp hb with rfl | hb
    · exact ⟨a, List.mem_cons_self, hb'⟩
    · obtain ⟨a', ha', hf⟩ := ih hbs' hb
      exact ⟨a', List.mem_cons_of_mem _ ha', hf⟩

theorem exists_mem_of_mapM {f : α → Except ε β} {as : List α} {bs : List β} {a : α}
    (h : as.mapM f = .ok bs) (ha : a ∈ as) : ∃ b ∈ bs, f a = .ok b := by
  induction as generalizing bs with
  | nil => cases ha
  | cons a' rest ih =>
    rw [List.mapM_cons] at h
    obtain ⟨b', hb', h⟩ := bind_ok_iff.mp h
    obtain ⟨bs', hbs', h⟩ := bind_ok_iff.mp h
    obtain rfl := Except.ok.inj h
    rcases List.mem_cons.mp ha with rfl | ha
    · exact ⟨b', List.mem_cons_self, hb'⟩
    · obtain ⟨b, hb, hf⟩ := ih hbs' ha
      exact ⟨b, List.mem_cons_of_mem _ hb, hf⟩

theorem mapM_eq_ok_iff {f : α → Except ε β} {as : List α} {bs : List β} :
    as.mapM f = .ok bs ↔ List.Forall₂ (fun a b => f a = .ok b) as bs := by
  induction as generalizing bs with
  | nil =>
    constructor
    · intro h
      obtain rfl := Except.ok.inj h
      exact .nil
    · rintro ⟨⟩
      rfl
  | cons a rest ih =>
    rw [List.mapM_cons]
    constructor
    · intro h
      obtain ⟨b, hb, h⟩ := bind_ok_iff.mp h
      obtain ⟨bs', hbs', h⟩ := bind_ok_iff.mp h
      obtain rfl := Except.ok.inj h
      exact .cons hb (ih.mp hbs')
    · rintro (_ | ⟨hb, hrest⟩)
      exact bind_ok_iff.mpr ⟨_, hb, bind_ok_iff.mpr ⟨_, ih.mpr hrest, rfl⟩⟩

/-- Reading a list that is put together from lists is reading each of those, one after the other. -/
theorem mapM_flatMap {f : β → Except ε σ} {g : α → List β} {read : α → Except ε (List σ)} {as : List α}
    (h : ∀ a ∈ as, read a = (g a).mapM f) : (as.flatMap g).mapM f = (as.mapM read).map List.flatten := by
  induction as with
  | nil => rfl
  | cons a rest ih =>
    rw [List.flatMap_cons, List.mapM_append, List.mapM_cons, h a List.mem_cons_self,
      ih fun a ha => h a (List.mem_cons_of_mem _ ha)]
    cases (g a).mapM f with
    | error e => rfl
    | ok bs => cases rest.mapM read <;> rfl

theorem foldlM_keeps {f : σ → α → Except ε σ} {P : σ → Prop} {l : List α} {s t : σ}
    (hf : ∀ a ∈ l, ∀ s t, f s a = .ok t → P s → P t) (h : l.foldlM f s = .ok t) (hs : P s) : P t := by
  induction l generalizing s with
  | nil =>
    obtain rfl := Except.ok.inj h
    exact hs
  | cons a rest ih =>
    rw [List.foldlM_cons] at h
    obtain ⟨u, hu, h⟩ := bind_ok_iff.mp h
    exact ih (fun b hb => hf b (List.mem_cons_of_mem _ hb)) h (hf a List.mem_cons_self s u hu hs)

end HttpSession
