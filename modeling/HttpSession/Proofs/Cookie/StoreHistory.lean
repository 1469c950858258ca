import HttpSession.Proofs.Cookie.StoreLaws
import HttpSession.Proofs.Persistence

/-!
# The history of a cookie store

What an empty store holds after any number of changes: cookies are added, each at its own time, expired
ones are purged, and sometimes everything is cleared. Times need not grow: a purge may look ahead of
the additions around it, or back.

Main statement: the store lists, in strictly increasing order of their keys, exactly the cookies that
stand at the end of its history, and a purge counts the ones it takes away (`lists_current`).
-/

namespace HttpSession.Cookie.Store

inductive Change
  | add (now : Instant) (c : Cookie)
  | purge (limit : Instant)
  | clear
  deriving DecidableEq, Repr

namespace Change

def apply (s : Store) : Change → Store
  | .add now c => s.add now c
  | .purge limit => s.purge limit
  | .clear => {}

/-- A change leaves a cookie alone: it adds none of the same identity, and no purge reaches its expiry. -/
def Preserves (c : Cookie) : Change → Prop
  | .add _ d => d.key ≠ c.key
  | .purge limit => c.expiredAt limit = false
  | .clear => False

end Change

def after (history : List Change) : Store := history.foldl Change.apply {}

/-- A cookie is current at the end of a history: it was added, had not expired then, and every change since
has preserved it. -/
def IsCurrent (history : List Change) (c : Cookie) : Prop :=
  ∃ earlier now later, history = earlier ++ .add now c :: later ∧ c.expiredAt now = false ∧
    ∀ change ∈ later, change.Preserves c

section
variable {s : Store} {c : Cookie} {history : List Change}

theorem after_concat (history : List Change) (change : Change) :
    after (history ++ [change]) = change.apply (after history) := by
  simp [after, List.foldl_append]

theorem mem_purge_iff {limit : Instant} :
    c ∈ (s.purge limit).toList ↔ c ∈ s.toList ∧ c.expiredAt limit = false := by
  simp

theorem Ordered.apply (h : s.Ordered) (change : Change) : (change.apply s).Ordered := by
  cases change with
  | add now c => exact h.add now c
  | purge limit => exact h.purge limit
  | clear => exact ordered_empty

theorem Ordered.mem_apply_iff (h : s.Ordered) (change : Change) :
    c ∈ (change.apply s).toList ↔
      (∃ now, change = .add now c ∧ c.expiredAt now = false) ∨ (c ∈ s.toList ∧ change.Preserves c) := by
  cases change with
  | add now d =>
    refine h.mem_add_iff.trans (or_congr ?_ (and_congr_right fun _ => ne_comm))
    constructor
    · rintro ⟨rfl, hfresh⟩
      exact ⟨now, rfl, hfresh⟩
    · rintro ⟨_, hchange, hfresh⟩
      obtain ⟨rfl, rfl⟩ := Change.add.inj hchange
      exact ⟨rfl, hfresh⟩
  | purge limit => simp [Change.apply, Change.Preserves]
  | clear => simp [Change.apply, Change.Preserves]

theorem isCurrent_iff_persists : IsCurrent history c ↔
    Persists (fun change => ∃ now, change = .add now c ∧ c.expiredAt now = false)
      (·.Preserves c) history := by
  constructor
  · rintro ⟨earlier, now, later, heq, hfresh, hlater⟩
    exact ⟨earlier, .add now c, later, heq, ⟨now, rfl, hfresh⟩, hlater⟩
  · rintro ⟨earlier, _, later, heq, ⟨now, rfl, hfresh⟩, hlater⟩
    exact ⟨earlier, now, later, heq, hfresh, hlater⟩

theorem isCurrent_concat_iff (history : List Change) (change : Change) :
    IsCurrent (history ++ [change]) c ↔
      (∃ now, change = .add now c ∧ c.expiredAt now = false) ∨
        (IsCurrent history c ∧ change.Preserves c) := by
  rw [isCurrent_iff_persists, persists_concat_iff, ← isCurrent_iff_persists]

theorem ordered_after (history : List Change) : (after history).Ordered := by
  induction history using List.reverseRecOn with
  | nil => exact ordered_empty
  | append_singleton history change ih =>
    rw [after_concat]
    exact ih.apply change

theorem mem_after_iff : c ∈ (after history).toList ↔ IsCurrent history c := by
  induction history using List.reverseRecOn with
  | nil => simp [after, IsCurrent]
  | append_singleton history change ih =>
    rw [after_concat, (ordered_after history).mem_apply_iff, isCurrent_concat_iff, ih]

theorem expiredCount_eq (s : Store) (limit : Instant) :
    s.expiredCount limit = (s.toList.filter (· ∉ (s.purge limit).toList)).length := by
  have hsplit := List.length_eq_length_filter_add (l := s.toList) (!·.expiredAt limit)
  have hgone : s.toList.filter (· ∉ (s.purge limit).toList) = s.toList.filter (!!·.expiredAt limit) :=
    List.filter_congr fun c hc => by simp [hc]
  rw [hgone]
  exact Nat.sub_eq_of_eq_add' hsplit

end

/-- After any changes a store lists, in strictly increasing order of their keys, exactly the cookies that
are current; and a purge that comes next counts exactly those that it removes. -/
theorem lists_current (history : List Change) :
    (after history).Ordered ∧ (∀ c, c ∈ (after history).toList ↔ IsCurrent history c) ∧
      ∀ limit, (after history).expiredCount limit =
        ((after history).toList.filter (· ∉ (after (history ++ [.purge limit])).toList)).length := by
  refine ⟨ordered_after history, fun c => mem_after_iff, fun limit => ?_⟩
  rw [after_concat]
  exact expiredCount_eq _ limit

/-- The case of a domain does not make another cookie, and a purge that reaches no expiry takes nothing
away. -/
example : (after [.add ⟨9, 0⟩ { name := "a", value := "1", domain := "H" }, .purge ⟨8, 0⟩,
    .add ⟨2, 0⟩ { name := "a", value := "2", domain := "h", expiry := some ⟨5, 0⟩ },
    .purge ⟨4, 0⟩]).toList.map (·.value) = [("2" : Text)] := by
  decide

end HttpSession.Cookie.Store
