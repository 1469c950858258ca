import HttpSession.Cookie.File
import HttpSession.Proofs.Cookie.Visits

/-!
# Purging is not observed

A purge takes away what is expired at some moment. From that moment on no request would carry it, and
what is stored does not depend on what was stored before; so a session that purges differs from one that
does not in the expired cookies of its store, and in nothing that can be seen.

The relation that carries this says that two stores are one and the same once both are purged. Every
step keeps it, whatever its clock shows; only a request has to look at the store at that moment or
later.

Main statement: a session behaves the same whether or not its store is purged first
(`purge_unobserved`).
-/

namespace HttpSession.Cookie

-- ---------------------------------------------------------------------------
-- Sessions with imports
-- ---------------------------------------------------------------------------

inductive StoreEvent
  | visit (p : Policy) (visit : Visit)
  | load (now : Instant) (file : Bytes)
  deriving DecidableEq, Repr

/-- All cookies of a file are accepted; a file that gives none changes nothing. -/
def StoreEvent.outcome (s : Store) : StoreEvent → Outcome
  | .visit p v => v.outcome p s
  | .load now file =>
    match File.read file with
    | .ok reading => { store := s.addAll now reading.cookies, accepted := reading.cookies }
    | .error _ => { store := s }

def StoreEvent.AsksSince (t : Instant) : StoreEvent → Prop
  | .visit _ (.attach _ now _) => t.notAfter now = true
  | _ => True

-- ---------------------------------------------------------------------------
-- Stores that a purge makes equal
-- ---------------------------------------------------------------------------

theorem expiredAt_of_notAfter {c : Cookie} {t now : Instant} (h : c.expiredAt t = true)
    (ht : t.notAfter now = true) : c.expiredAt now = true := by
  unfold expiredAt at h ⊢
  cases hexpiry : c.expiry with
  | none =>
    rw [hexpiry] at h
    cases h
  | some expiry =>
    rw [hexpiry] at h
    exact Instant.notAfter_trans h ht

namespace Store

variable {s u : Store} {t now : Instant} {c : Cookie} {cookies : List Cookie}

theorem purge_purge (s : Store) (t : Instant) : (s.purge t).purge t = s.purge t := by
  rw [purge, clearExpired, toList_purge, List.filter_filter]
  simp only [Bool.and_self]
  rfl

/-- What a purge takes away would not be chosen at that moment or later. -/
theorem chosen_purge (s : Store) (rules : Rules) (ht : t.notAfter now = true) :
    (s.purge t).chosen rules now = s.chosen rules now := by
  rw [chosen, chosen, toList_purge, List.filter_filter]
  refine List.filter_congr fun c _ => ?_
  cases hexpired : c.expiredAt t with
  | false => simp
  | true => simp [expiredAt_of_notAfter hexpired ht]

/-- Whether two stores in order are equal but for cookies that are expired at some moment. -/
structure EqualSince (t : Instant) (s u : Store) : Prop where
  left : s.Ordered
  right : u.Ordered
  purged : s.purge t = u.purge t

namespace EqualSince

theorem mem_iff (h : EqualSince t s u) (hc : c.expiredAt t = false) : c ∈ s.toList ↔ c ∈ u.toList := by
  have hpurged : c ∈ (s.purge t).toList ↔ c ∈ (u.purge t).toList := by rw [h.purged]
  simpa [mem_purge_iff, hc] using hpurged

theorem of_mem_iff (hs : s.Ordered) (hu : u.Ordered)
    (hmem : ∀ c, c.expiredAt t = false → (c ∈ s.toList ↔ c ∈ u.toList)) : EqualSince t s u := by
  refine ⟨hs, hu, (hs.purge t).ext (hu.purge t) fun c => ?_⟩
  rw [mem_purge_iff, mem_purge_iff]
  exact and_congr_left (hmem c)

/-- Whether the cookie replaces, deletes or is new, it does the same to what is not expired. -/
theorem add (h : EqualSince t s u) (now : Instant) (c : Cookie) :
    EqualSince t (s.add now c) (u.add now c) := by
  refine of_mem_iff (h.left.add now c) (h.right.add now c) fun d hd => ?_
  rw [h.left.mem_add_iff, h.right.mem_add_iff]
  exact or_congr_right (and_congr_left fun _ => h.mem_iff hd)

theorem addAll (h : EqualSince t s u) (now : Instant) (cookies : List Cookie) :
    EqualSince t (s.addAll now cookies) (u.addAll now cookies) := by
  induction cookies generalizing s u with
  | nil => exact h
  | cons c rest ih => exact ih (h.add now c)

theorem change (h : EqualSince t s u) (change : Change) : EqualSince t (change.apply s) (change.apply u) := by
  cases change with
  | add now c => exact h.add now c
  | purge limit =>
    refine of_mem_iff (h.left.purge limit) (h.right.purge limit) fun c hc => ?_
    exact mem_purge_iff.trans ((and_congr_left fun _ => h.mem_iff hc).trans mem_purge_iff.symm)
  | clear => exact of_mem_iff ordered_empty ordered_empty fun _ _ => Iff.rfl

theorem chosen_eq (h : EqualSince t s u) (rules : Rules) (ht : t.notAfter now = true) :
    s.chosen rules now = u.chosen rules now := by
  rw [← chosen_purge s rules ht, h.purged, chosen_purge u rules ht]

end EqualSince

theorem Ordered.equalSince_purge (h : s.Ordered) (t : Instant) : EqualSince t (s.purge t) s :=
  ⟨h.purge t, h, purge_purge s t⟩

end Store

-- ---------------------------------------------------------------------------
-- Sessions that a purge does not tell apart
-- ---------------------------------------------------------------------------

/-- Whether two outcomes can only be told apart by cookies of their stores that are expired at some
moment: the same cookies were accepted, and a request got the same headers. -/
structure Outcome.EqualSince (t : Instant) (a b : Outcome) : Prop where
  store : a.store.EqualSince t b.store
  accepted : a.accepted = b.accepted
  headers : a.headers = b.headers

theorem StoreEvent.outcome_equalSince {t : Instant} {s u : Store} {event : StoreEvent}
    (h : s.EqualSince t u) (ht : event.AsksSince t) :
    (event.outcome s).EqualSince t (event.outcome u) := by
  cases event with
  | visit p visit =>
    cases visit with
    | attach o now request =>
      refine ⟨h, rfl, ?_⟩
      show Cookie.attach request p (s.chosen ⟨p, o⟩ now) = Cookie.attach request p (u.chosen ⟨p, o⟩ now)
      rw [h.chosen_eq ⟨p, o⟩ ht]
    | ingest o now response => exact ⟨h.addAll now _, rfl, rfl⟩
    | edit change => exact ⟨h.change change, rfl, rfl⟩
  | load now file =>
    simp only [outcome]
    cases File.read file with
    | ok reading => exact ⟨h.addAll now _, rfl, rfl⟩
    | error _ => exact ⟨h, rfl, rfl⟩

/-- A session that purges its store at some moment and one that does not go on alike, as long as no
request is made before that moment: step by step they accept the same cookies and give requests the same
headers, and their stores differ in cookies alone that were expired then. -/
theorem purge_unobserved {s : Store} (hs : s.Ordered) (t : Instant) {happenings : List StoreEvent}
    (ht : ∀ event ∈ happenings, event.AsksSince t) :
    List.Forall₂ (Outcome.EqualSince t) (outcomesBy StoreEvent.outcome (s.purge t) happenings)
      (outcomesBy StoreEvent.outcome s happenings) := by
  have hstep {s u : Store} {event : StoreEvent} (h : s.EqualSince t u) (ht : event.AsksSince t) :
      (event.outcome s).EqualSince t (event.outcome u) ∧
        (event.outcome s).store.EqualSince t (event.outcome u).store :=
    ⟨StoreEvent.outcome_equalSince h ht, (StoreEvent.outcome_equalSince h ht).store⟩
  exact forall₂_outcomesBy hstep ht (hs.equalSince_purge t)

def expiring : Store :=
  ⟨[{ name := "a", value := "1", domain := "a.example", expiry := some ⟨8, 0⟩ },
    { name := "b", value := "1", domain := "a.example" }]⟩

def ninthSecond : List StoreEvent :=
  [.visit .bestMatch (.ingest (.of "a.example" 80 "/" false) ⟨9, 0⟩
      [(HeaderName.setCookie, Utf8.encode "a=2")]),
    .load ⟨9, 0⟩ (Utf8.encode "a.example\tFALSE\t/\tFALSE\t0\tc\t3\n"),
    .visit .bestMatch (.attach (.of "a.example" 80 "/" false) ⟨9, 0⟩ [])]

theorem purge_unobserved_replacing :
    expiring.Ordered ∧ expiring.purge ⟨8, 0⟩ ≠ expiring ∧
      List.Forall₂ (Outcome.EqualSince ⟨8, 0⟩)
        (outcomesBy StoreEvent.outcome (expiring.purge ⟨8, 0⟩) ninthSecond)
        (outcomesBy StoreEvent.outcome expiring ninthSecond) ∧
      (outcomesBy StoreEvent.outcome expiring ninthSecond).map (·.accepted.length) = [1, 1, 0] := by
  have hordered : expiring.Ordered := by
    unfold Store.Ordered
    decide
  refine ⟨hordered, by decide, purge_unobserved hordered ⟨8, 0⟩ fun event h => ?_, by decide +kernel⟩
  simp only [ninthSecond, List.mem_cons, List.not_mem_nil, or_false] at h
  rcases h with rfl | rfl | rfl
  · trivial
  · trivial
  · exact (by decide : Instant.notAfter ⟨8, 0⟩ ⟨9, 0⟩ = true)

end HttpSession.Cookie
