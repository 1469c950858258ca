import Mathlib
import HttpSession.Cookie.Store

/-!
# Laws of the cookie store

What a store holds after cookies were added: nothing but them and what it held before, and all it held
before but for cookies that one of them replaces or, expired, takes away. A store in strictly increasing
order of keys (`Ordered`) stays so, and then holds at most one cookie of each identity: the last one that
was added (`Ordered.filter_key_addAll`).
-/

namespace HttpSession.Cookie

-- ---------------------------------------------------------------------------
-- The order of keys
-- ---------------------------------------------------------------------------

namespace Key

variable {j k l : Key}

def tuple (k : Key) : Text ×ₗ Text ×ₗ Text := toLex (k.name, toLex (k.domain, k.path))

theorem before_iff : j.before k ↔ j.tuple < k.tuple := by
  simp [before, tuple, Prod.Lex.toLex_lt_toLex]

theorem tuple_injective : Function.Injective tuple := by
  rintro ⟨name, domain, path⟩ ⟨name', domain', path'⟩ h
  simpa [tuple] using h

theorem before_trans (h : j.before k) (h' : k.before l) : j.before l :=
  before_iff.mpr ((before_iff.mp h).trans (before_iff.mp h'))

theorem ne_of_before (h : j.before k) : j ≠ k := by
  rintro rfl
  exact lt_irrefl _ (before_iff.mp h)

theorem before_of_not_before (h : ¬ j.before k) (hne : j ≠ k) : k.before j := by
  rw [before_iff, not_lt] at h
  exact before_iff.mpr (lt_of_le_of_ne h (tuple_injective.ne hne.symm))

end Key

namespace Store

variable {c d : Cookie} {l cookies : List Cookie} {s : Store} {now : Instant}

-- ---------------------------------------------------------------------------
-- What a store holds
-- ---------------------------------------------------------------------------

theorem mem_of_mem_insertSorted (h : d ∈ insertSorted c l) : d = c ∨ d ∈ l := by
  induction l with
  | nil => exact .inl (by simpa [insertSorted] using h)
  | cons e rest ih =>
    unfold insertSorted at h
    split at h
    · simpa using h
    · split at h
      · rcases List.mem_cons.mp h with rfl | h
        · exact .inl rfl
        · exact .inr (List.mem_cons_of_mem _ h)
      · rcases List.mem_cons.mp h with rfl | h
        · exact .inr List.mem_cons_self
        · exact (ih h).imp_right (List.mem_cons_of_mem _)

theorem mem_insertSorted_of_mem (h : d ∈ l) : d ∈ insertSorted c l ∨ c.key = d.key := by
  induction l with
  | nil => cases h
  | cons e rest ih =>
    unfold insertSorted
    split
    · exact .inl (List.mem_cons_of_mem _ h)
    · split
      · rename_i hkey
        rcases List.mem_cons.mp h with rfl | h
        · exact .inr hkey
        · exact .inl (List.mem_cons_of_mem _ h)
      · rcases List.mem_cons.mp h with rfl | h
        · exact .inl List.mem_cons_self
        · exact (ih h).imp_left (List.mem_cons_of_mem _)

theorem mem_of_mem_add (h : d ∈ (s.add now c).toList) : d = c ∨ d ∈ s.toList := by
  unfold add at h
  split at h
  · exact .inr (List.mem_filter.mp h).1
  · exact mem_of_mem_insertSorted h

theorem mem_add_of_mem (h : d ∈ s.toList) : d ∈ (s.add now c).toList ∨ c.key = d.key := by
  unfold add
  split
  · by_cases hkey : d.key = c.key
    · exact .inr hkey.symm
    · exact .inl (List.mem_filter.mpr ⟨h, by simpa using hkey⟩)
  · exact mem_insertSorted_of_mem h

theorem mem_of_mem_addAll (h : d ∈ (s.addAll now cookies).toList) : d ∈ cookies ∨ d ∈ s.toList := by
  induction cookies generalizing s with
  | nil => exact .inr h
  | cons c rest ih =>
    rcases ih h with hd | hd
    · exact .inl (List.mem_cons_of_mem _ hd)
    · rcases mem_of_mem_add hd with rfl | hd
      · exact .inl List.mem_cons_self
      · exact .inr hd

theorem mem_addAll_of_mem (h : d ∈ s.toList) :
    d ∈ (s.addAll now cookies).toList ∨ ∃ c ∈ cookies, c.key = d.key := by
  induction cookies generalizing s with
  | nil => exact .inl h
  | cons c rest ih =>
    have hadded : d ∈ (s.add now c).toList ∨ c.key = d.key := mem_add_of_mem h
    rcases hadded with hd | hkey
    · exact (ih hd).imp_right fun ⟨e, he, hkey⟩ => ⟨e, List.mem_cons_of_mem _ he, hkey⟩
    · exact .inr ⟨c, List.mem_cons_self, hkey⟩

-- ---------------------------------------------------------------------------
-- Stores in order
-- ---------------------------------------------------------------------------

def Ordered (s : Store) : Prop := s.toList.Pairwise fun c d => c.key.before d.key

theorem ordered_empty : Ordered {} := List.Pairwise.nil

theorem pairwise_insertSorted (h : l.Pairwise fun c d => c.key.before d.key) :
    (insertSorted c l).Pairwise fun c d => c.key.before d.key := by
  induction l with
  | nil => simp [insertSorted]
  | cons d rest ih =>
    obtain ⟨hd, hrest⟩ := List.pairwise_cons.mp h
    unfold insertSorted
    split
    · rename_i hbefore
      refine List.pairwise_cons.mpr ⟨fun e he => ?_, h⟩
      rcases List.mem_cons.mp he with rfl | he
      · exact hbefore
      · exact Key.before_trans hbefore (hd e he)
    · rename_i hbefore
      split
      · rename_i hkey
        exact List.pairwise_cons.mpr ⟨fun e he => hkey ▸ hd e he, hrest⟩
      · rename_i hkey
        refine List.pairwise_cons.mpr ⟨fun e he => ?_, ih hrest⟩
        rcases mem_of_mem_insertSorted he with rfl | he
        · exact Key.before_of_not_before hbefore hkey
        · exact hd e he

theorem mem_insertSorted_self : c ∈ insertSorted c l := by
  induction l with
  | nil => simp [insertSorted]
  | cons d rest ih =>
    unfold insertSorted
    split
    · exact List.mem_cons_self
    · split
      · exact List.mem_cons_self
      · exact List.mem_cons_of_mem _ ih

namespace Ordered

theorem add (h : s.Ordered) (now : Instant) (c : Cookie) : (s.add now c).Ordered := by
  unfold Store.add
  split
  · exact h.filter _
  · exact pairwise_insertSorted h

theorem addAll (h : s.Ordered) (now : Instant) (cookies : List Cookie) :
    (s.addAll now cookies).Ordered := by
  induction cookies generalizing s with
  | nil => exact h
  | cons c rest ih => exact ih (h.add now c)

theorem purge (h : s.Ordered) (limit : Instant) : (s.purge limit).Ordered := h.filter _

theorem nodup_keys (h : s.Ordered) : (s.toList.map key).Nodup :=
  List.pairwise_map.mpr (h.imp Key.ne_of_before)

theorem eq_of_key (h : s.Ordered) (hc : c ∈ s.toList) (hd : d ∈ s.toList) (hkey : c.key = d.key) :
    c = d :=
  List.inj_on_of_nodup_map h.nodup_keys hc hd hkey

theorem ext {u : Store} (h : s.Ordered) (hu : u.Ordered) (hmem : ∀ c, c ∈ s.toList ↔ c ∈ u.toList) :
    s = u := by
  have hnever (c d : Cookie) (hcd : c.key.before d.key) (hdc : d.key.before c.key) : c = d :=
    absurd rfl (Key.ne_of_before (Key.before_trans hcd hdc))
  have hperm : s.toList.Perm u.toList :=
    (List.perm_ext_iff_of_nodup (.of_map key h.nodup_keys) (.of_map key hu.nodup_keys)).mpr hmem
  have hlist : s.toList = u.toList := hperm.eq_of_pairwise (fun c d _ _ => hnever c d) h hu
  cases s
  exact congrArg Store.mk hlist

theorem filter_key (h : s.Ordered) (hc : c ∈ s.toList) : s.toList.filter (·.key = c.key) = [c] := by
  have hnodup : (s.toList.filter (·.key = c.key)).Nodup := (List.Nodup.of_map key h.nodup_keys).filter _
  refine List.Perm.eq_singleton ((List.perm_ext_iff_of_nodup hnodup (List.nodup_singleton c)).mpr ?_)
  intro d
  simp only [List.mem_filter, decide_eq_true_eq, List.mem_singleton]
  constructor
  · exact fun ⟨hd, hkey⟩ => h.eq_of_key hd hc hkey
  · rintro rfl
    exact ⟨hc, rfl⟩

theorem mem_add_iff (h : s.Ordered) :
    d ∈ (s.add now c).toList ↔
      (d = c ∧ c.expiredAt now = false) ∨ (d ∈ s.toList ∧ d.key ≠ c.key) := by
  cases hexpired : c.expiredAt now with
  | true => simp [Store.add, hexpired]
  | false =>
    have hself : c ∈ (s.add now c).toList := by
      simpa [Store.add, hexpired] using mem_insertSorted_self
    constructor
    · intro hd
      by_cases hkey : d.key = c.key
      · exact .inl ⟨(h.add now c).eq_of_key hd hself hkey, rfl⟩
      · rcases mem_of_mem_add hd with rfl | hd
        · exact absurd rfl hkey
        · exact .inr ⟨hd, hkey⟩
    · rintro (⟨rfl, -⟩ | ⟨hd, hkey⟩)
      · exact hself
      · exact (mem_add_of_mem hd).resolve_right (Ne.symm hkey)

theorem mem_addAll_iff_of_ne (h : s.Ordered) (hd : ∀ c ∈ cookies, c.key ≠ d.key) :
    d ∈ (s.addAll now cookies).toList ↔ d ∈ s.toList := by
  induction cookies generalizing s with
  | nil => exact Iff.rfl
  | cons c rest ih =>
    have hc := hd c List.mem_cons_self
    have hadded : d ∈ (s.add now c).toList ↔ d ∈ s.toList := by
      rw [h.mem_add_iff]
      have hne : d ≠ c := fun he => hc (congrArg key he.symm)
      simp [hne, Ne.symm hc]
    exact (ih (h.add now c) fun e he => hd e (List.mem_cons_of_mem _ he)).trans hadded

/-- Of the cookies of one identity the last one that was added is held, unless it was expired. -/
theorem filter_key_addAll {earlier later : List Cookie} (h : s.Ordered)
    (hl : ∀ d ∈ later, d.key ≠ c.key) :
    (s.addAll now (earlier ++ c :: later)).toList.filter (·.key = c.key) =
      if c.expiredAt now then [] else [c] := by
  have hsplit : s.addAll now (earlier ++ c :: later) =
      ((s.addAll now earlier).add now c).addAll now later := by
    simp [Store.addAll, List.foldl_append]
  have hearlier := h.addAll now earlier
  have hadded := hearlier.add now c
  rw [hsplit]
  split
  · rename_i hexpired
    rw [List.filter_eq_nil_iff]
    intro d hd hkey
    rw [decide_eq_true_eq] at hkey
    rw [hadded.mem_addAll_iff_of_ne (fun e he => hkey ▸ hl e he), hearlier.mem_add_iff] at hd
    rcases hd with ⟨rfl, hd⟩ | ⟨-, hne⟩
    · rw [hexpired] at hd
      cases hd
    · exact hne hkey
  · rename_i hexpired
    refine (hadded.addAll now later).filter_key ?_
    rw [hadded.mem_addAll_iff_of_ne hl, hearlier.mem_add_iff]
    exact .inl ⟨rfl, Bool.not_eq_true _ ▸ hexpired⟩

end Ordered

end Store

end HttpSession.Cookie
