import HttpSession.Auth.Vault
import HttpSession.Proofs.Persistence
import Mathlib.Data.List.Induction
import Mathlib.Data.Prod.Lex
import Mathlib.Order.BooleanAlgebra.Basic

/-!
# Looking credentials up

A vault is filled and cleared, and then asked with a scope. What it finds was entered for a scope of the
highest score among all that stand, and a score ranks scopes by which parts they share with what is asked
for: the host first, then the port, the realm and the scheme.

Main statement: something is found exactly if some scope that stands does not conflict with what is asked
for, and it is the latest that was entered for a scope of the highest score (`finds_best`), in whatever
order the entries are gone through.
-/

namespace HttpSession.Auth

-- ---------------------------------------------------------------------------
-- Scores
-- ---------------------------------------------------------------------------

namespace Scope

section
variable {α : Type} {kept asked : Option α}

def Differ (kept asked : Option α) : Prop := ∃ a b, kept = some a ∧ asked = some b ∧ a ≠ b

variable [DecidableEq α]

def agree (kept asked : Option α) : Bool := kept.isSome && kept = asked

theorem part_eq_none (h : Differ kept asked) (weight : Nat) : part kept asked weight = none := by
  obtain ⟨a, b, rfl, rfl, hne⟩ := h
  exact if_neg hne

theorem part_eq_some (h : ¬ Differ kept asked) (weight : Nat) :
    part kept asked weight = some (if agree kept asked then weight else 0) := by
  cases kept with
  | none => simp [part, agree]
  | some a =>
    cases asked with
    | none => simp [part, agree]
    | some b =>
      have hab : a = b := by simpa [Differ] using h
      simp [part, agree, hab]

end

def Conflicts (kept asked : Scope) : Prop :=
  Differ kept.host asked.host ∨ Differ kept.port asked.port ∨ Differ kept.realm asked.realm ∨
    Differ kept.scheme asked.scheme

/-- Which parts name what is asked for, the most telling first. -/
def specificity (kept asked : Scope) : Bool ×ₗ Bool ×ₗ Bool ×ₗ Bool :=
  toLex (agree kept.host asked.host, toLex (agree kept.port asked.port,
    toLex (agree kept.realm asked.realm, agree kept.scheme asked.scheme)))

def worth (host port realm scheme : Bool) : Nat :=
  (if host then 8 else 0) + (if port then 4 else 0) + (if realm then 2 else 0) + (if scheme then 1 else 0)

theorem worth_lt_iff (host port realm scheme host' port' realm' scheme' : Bool) :
    worth host port realm scheme < worth host' port' realm' scheme' ↔
      toLex (host, toLex (port, toLex (realm, scheme))) <
        toLex (host', toLex (port', toLex (realm', scheme'))) := by
  revert host port realm scheme host' port' realm' scheme'
  decide

variable {kept other asked : Scope} {score score' : Nat}

theorem score?_eq_none (h : kept.Conflicts asked) : kept.score? asked = none := by
  unfold score?
  rcases h with h | h | h | h
  · simp [part_eq_none h]
  · simp [part_eq_none h]
  · simp [part_eq_none h]
  · simp [part_eq_none h]

theorem score?_eq_some (h : ¬ kept.Conflicts asked) :
    kept.score? asked = some (worth (agree kept.host asked.host) (agree kept.port asked.port)
      (agree kept.realm asked.realm) (agree kept.scheme asked.scheme)) := by
  simp only [Conflicts, not_or] at h
  obtain ⟨hhost, hport, hrealm, hscheme⟩ := h
  unfold score?
  simp [part_eq_some hhost, part_eq_some hport, part_eq_some hrealm, part_eq_some hscheme, worth]

theorem score?_eq_none_iff : kept.score? asked = none ↔ kept.Conflicts asked := by
  refine ⟨fun h => ?_, score?_eq_none⟩
  by_contra hno
  simp [score?_eq_some hno] at h

theorem eq_worth (h : kept.score? asked = some score) :
    score = worth (agree kept.host asked.host) (agree kept.port asked.port)
      (agree kept.realm asked.realm) (agree kept.scheme asked.scheme) := by
  have hno : ¬ kept.Conflicts asked := fun hconflicts => by simp [score?_eq_none hconflicts] at h
  rw [score?_eq_some hno] at h
  exact (Option.some.inj h).symm

theorem lt_iff_specificity_lt (h : kept.score? asked = some score) (h' : other.score? asked = some score') :
    score < score' ↔ kept.specificity asked < other.specificity asked := by
  rw [eq_worth h, eq_worth h']
  exact worth_lt_iff _ _ _ _ _ _ _ _

theorem lt_of_host (h : kept.score? asked = some score) (h' : other.score? asked = some score')
    (hkept : agree kept.host asked.host = false) (hother : agree other.host asked.host = true) :
    score < score' := by
  have hlt : agree kept.host asked.host < agree other.host asked.host := by
    rw [hkept, hother]
    decide
  rw [lt_iff_specificity_lt h h', specificity, specificity, Prod.Lex.toLex_lt_toLex]
  exact .inl hlt

theorem worth_mono (host port realm scheme host' port' realm' scheme' : Bool) (hh : host ≤ host')
    (hp : port ≤ port') (hr : realm ≤ realm') (hs : scheme ≤ scheme') :
    worth host port realm scheme ≤ worth host' port' realm' scheme' := by
  revert host port realm scheme host' port' realm' scheme'
  decide

theorem agree_le_self {α : Type} [DecidableEq α] (kept asked : Option α) :
    agree kept asked ≤ agree asked asked := by
  rw [Bool.le_iff_imp]
  simp only [agree, Bool.and_eq_true, decide_eq_true_eq]
  rintro ⟨hsome, rfl⟩
  exact ⟨hsome, trivial⟩

/-- Nothing scores higher than the very scope that is asked for. -/
theorem score?_le_self (h : kept.score? asked = some score) (h' : asked.score? asked = some score') :
    score ≤ score' := by
  rw [eq_worth h, eq_worth h']
  exact worth_mono _ _ _ _ _ _ _ _ (agree_le_self _ _) (agree_le_self _ _) (agree_le_self _ _)
    (agree_le_self _ _)

theorem not_differ_self {α : Type} (part : Option α) : ¬ Differ part part := by
  rintro ⟨a, b, ha, hb, hne⟩
  exact hne (Option.some.inj (ha.symm.trans hb))

theorem not_conflicts_self (s : Scope) : ¬ s.Conflicts s := by
  simp [Conflicts, not_differ_self]

end Scope

-- ---------------------------------------------------------------------------
-- The best of some scored credentials
-- ---------------------------------------------------------------------------

namespace Vault

variable {v : Vault} {asked kept : Scope} {credentials : Credentials}

def IsBest (scored : List (Nat × Credentials)) : Option (Nat × Credentials) → Prop
  | none => scored = []
  | some best => best ∈ scored ∧ ∀ entry ∈ scored, entry.1 ≤ best.1

theorem IsBest.better {scored : List (Nat × Credentials)} {held : Option (Nat × Credentials)}
    (h : IsBest scored held) (next : Nat × Credentials) : IsBest (scored ++ [next]) (better held next) := by
  cases held with
  | none =>
    obtain rfl : scored = [] := h
    simp [Vault.better, IsBest]
  | some best =>
    obtain ⟨hmem, hle⟩ := h
    by_cases hlt : best.1 < next.1
    · rw [Vault.better, if_pos hlt]
      refine ⟨by simp, fun entry hentry => ?_⟩
      rcases List.mem_append.mp hentry with hentry | hentry
      · exact (hle entry hentry).trans hlt.le
      · obtain rfl := List.mem_singleton.mp hentry
        exact le_rfl
    · rw [Vault.better, if_neg hlt]
      refine ⟨List.mem_append_left _ hmem, fun entry hentry => ?_⟩
      rcases List.mem_append.mp hentry with hentry | hentry
      · exact hle entry hentry
      · obtain rfl := List.mem_singleton.mp hentry
        exact not_lt.mp hlt

theorem isBest_foldl (scored : List (Nat × Credentials)) : IsBest scored (scored.foldl better none) := by
  induction scored using List.reverseRecOn with
  | nil => exact rfl
  | append_singleton scored next ih =>
    rw [List.foldl_append]
    exact ih.better next

def scored (v : Vault) (asked : Scope) : List (Nat × Credentials) :=
  v.filterMap fun (kept, credentials) => (kept.score? asked).map (·, credentials)

theorem mem_scored_iff {score : Nat} :
    (score, credentials) ∈ v.scored asked ↔
      ∃ kept, (kept, credentials) ∈ v ∧ kept.score? asked = some score := by
  simp [scored]

theorem scored_eq_nil_iff :
    v.scored asked = [] ↔ ∀ kept credentials, (kept, credentials) ∈ v → kept.Conflicts asked := by
  simp [scored, List.filterMap_eq_nil_iff, Scope.score?_eq_none_iff]

theorem find?_of_lookup_eq_none (h : v.lookup asked = none) :
    v.find? asked = ((v.scored asked).foldl better none).map (·.2) := by
  rw [find?, h]
  rfl

theorem mem_of_lookup (h : v.lookup asked = some credentials) : (asked, credentials) ∈ v := by
  obtain ⟨before, after, rfl, -⟩ := List.lookup_eq_some_iff.mp h
  simp

theorem find?_eq_none_iff :
    v.find? asked = none ↔ ∀ kept credentials, (kept, credentials) ∈ v → kept.Conflicts asked := by
  cases hlookup : v.lookup asked with
  | some credentials =>
    have hself := Scope.not_conflicts_self asked
    simp only [find?, hlookup, reduceCtorEq, false_iff]
    exact fun h => hself (h asked credentials (mem_of_lookup hlookup))
  | none =>
    have hbest := isBest_foldl (v.scored asked)
    rw [find?_of_lookup_eq_none hlookup, Option.map_eq_none_iff, ← scored_eq_nil_iff]
    generalize (v.scored asked).foldl better none = held at hbest
    cases held with
    | none => exact iff_of_true rfl hbest
    | some best =>
      simp only [reduceCtorEq, false_iff]
      exact List.ne_nil_of_mem hbest.1

/-- What is found belongs to a scope of the highest score. -/
theorem exists_of_find? (h : v.find? asked = some credentials) :
    ∃ kept score, (kept, credentials) ∈ v ∧ kept.score? asked = some score ∧
      ∀ other others score', (other, others) ∈ v → other.score? asked = some score' → score' ≤ score := by
  cases hlookup : v.lookup asked with
  | some exact =>
    rw [find?, hlookup] at h
    obtain rfl := Option.some.inj h
    have hself := Scope.score?_eq_some (Scope.not_conflicts_self asked)
    exact ⟨asked, _, mem_of_lookup hlookup, hself, fun _ _ _ _ hscore => Scope.score?_le_self hscore hself⟩
  | none =>
    have hbest := isBest_foldl (v.scored asked)
    rw [find?_of_lookup_eq_none hlookup, Option.map_eq_some_iff] at h
    obtain ⟨⟨score, found⟩, hheld, rfl⟩ := h
    rw [hheld] at hbest
    obtain ⟨hmem, hle⟩ := hbest
    obtain ⟨kept, hkept, hscore⟩ := mem_scored_iff.mp hmem
    refine ⟨kept, score, hkept, hscore, fun other others score' hother hscore' => ?_⟩
    exact hle (score', others) (mem_scored_iff.mpr ⟨other, hother, hscore'⟩)

-- ---------------------------------------------------------------------------
-- Histories
-- ---------------------------------------------------------------------------

inductive Change
  | set (scope : Scope) (credentials : Credentials)
  | clear
  deriving DecidableEq, Repr

def Change.apply (v : Vault) : Change → Vault
  | .set scope credentials => v.set scope credentials
  | .clear => []

def Change.Preserves (kept : Scope) : Change → Prop
  | .set scope _ => scope ≠ kept
  | .clear => False

def after (history : List Change) : Vault := history.foldl Change.apply []

/-- Whether credentials are the latest that were entered for a scope since everything was cleared. -/
def IsCurrent (history : List Change) (kept : Scope) (credentials : Credentials) : Prop :=
  Persists (· = .set kept credentials) (Change.Preserves kept) history

theorem mem_apply_iff (change : Change) :
    (kept, credentials) ∈ change.apply v ↔
      change = .set kept credentials ∨ ((kept, credentials) ∈ v ∧ change.Preserves kept) := by
  cases change with
  | set scope entered =>
    simp only [Change.apply, set, Change.Preserves, List.mem_append, List.mem_filter, List.mem_singleton,
      Prod.mk.injEq, Change.set.injEq, decide_eq_true_eq]
    tauto
  | clear => simp [Change.apply, Change.Preserves]

theorem mem_after_iff {history : List Change} :
    (kept, credentials) ∈ after history ↔ IsCurrent history kept credentials := by
  induction history using List.reverseRecOn with
  | nil => simp [after, IsCurrent]
  | append_singleton history change ih =>
    rw [IsCurrent, persists_concat_iff, ← IsCurrent, ← ih, after, List.foldl_append]
    exact mem_apply_iff change

/-- After any changes, in whatever order the entries are gone through: credentials are found exactly if some
current scope does not conflict with what is asked for; those found are the latest for a scope of the
highest score; and scores rank the scopes that do not conflict by the parts that they share with what is
asked for, the host before all others. -/
theorem finds_best (history : List Change) (asked : Scope) {v : Vault} (hv : v.Perm (after history)) :
    ((v.find? asked).isSome ↔
      ∃ kept credentials, IsCurrent history kept credentials ∧ ¬ kept.Conflicts asked) ∧
    (∀ credentials, v.find? asked = some credentials →
      ∃ kept score, IsCurrent history kept credentials ∧ kept.score? asked = some score ∧
        ∀ other others score', IsCurrent history other others → other.score? asked = some score' →
          score' ≤ score) ∧
    (∀ kept : Scope, kept.score? asked = none ↔ kept.Conflicts asked) ∧
    ∀ (kept other : Scope) (score score' : Nat),
      kept.score? asked = some score → other.score? asked = some score' →
        (score < score' ↔ kept.specificity asked < other.specificity asked) ∧
          (¬ Scope.agree kept.host asked.host → Scope.agree other.host asked.host → score < score') := by
  have hmem (kept : Scope) (credentials : Credentials) :
      (kept, credentials) ∈ v ↔ IsCurrent history kept credentials := hv.mem_iff.trans mem_after_iff
  refine ⟨?_, ?_, fun kept => Scope.score?_eq_none_iff, ?_⟩
  · rw [Option.isSome_iff_ne_none, Ne, find?_eq_none_iff]
    push Not
    simp only [hmem]
  · intro credentials hfound
    obtain ⟨kept, score, hkept, hscore, hle⟩ := exists_of_find? hfound
    refine ⟨kept, score, (hmem _ _).mp hkept, hscore, fun other others score' hother => ?_⟩
    exact hle other others score' ((hmem _ _).mpr hother)
  · intro kept other score score' hscore hscore'
    refine ⟨Scope.lt_iff_specificity_lt hscore hscore', fun hkept hother => ?_⟩
    exact Scope.lt_of_host hscore hscore' (by simpa using hkept) hother

def exampleChanges : List Change :=
  [.set {} { user := "z", password := [] }, .clear, .set { host := some "h" } { user := "a", password := [] },
    .set { host := some "h" } { user := "b", password := [] },
    .set { port := some 80, realm := some "r" } { user := "c", password := [] }]

def exampleScope : Scope := .of (some "H") (some 80) (some "r") none

theorem finds_best_exampleChanges :
    (after exampleChanges).reverse.Perm (after exampleChanges) ∧
      (find? (after exampleChanges).reverse exampleScope).isSome ∧
      Scope.specificity { port := some 80, realm := some "r" } exampleScope <
        Scope.specificity { host := some "h" } exampleScope := by
  obtain ⟨hsome, -, -, hscores⟩ := finds_best exampleChanges exampleScope (List.reverse_perm _)
  refine ⟨List.reverse_perm _, hsome.mpr ⟨{ host := some "h" }, { user := "b", password := [] }, ?_, ?_⟩, ?_⟩
  · exact ⟨exampleChanges.take 3, _, exampleChanges.drop 4, rfl, rfl,
    by simp [exampleChanges, Change.Preserves]⟩
  · rw [← Scope.score?_eq_none_iff]
    decide
  · exact (hscores _ _ 6 8 (by decide) (by decide)).1.mp (by decide)

end Vault

end HttpSession.Auth
