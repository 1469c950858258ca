import HttpSession.Exchange.Context
import HttpSession.Proofs.Cookie.StoreHistory

/-!
# Visits

A session is a store that goes from visit to visit: a request takes cookies along, a response brings
some, and in between the store may be changed by hand. What a visit comes to is decided by the policy,
so two policies can be told apart by what their sessions leave behind, visit by visit.

Main statement: what relates two stores and is kept by every step relates whole sessions
(`forall₂_outcomesBy`), and so from visit to visit (`forall₂_outcomes`).
-/

namespace HttpSession

namespace Cookie

inductive Visit
  | attach (origin : Origin) (now : Instant) (request : Headers)
  | ingest (origin : Origin) (now : Instant) (response : Headers)
  | edit (change : Store.Change)
  deriving DecidableEq, Repr

/-- What a visit leaves behind: the store, the cookies that were accepted, and the headers of the request
with its cookies. -/
structure Outcome where
  store : Store
  accepted : List Cookie := []
  headers : Headers := []
  deriving DecidableEq, Repr

def Visit.outcome (p : Policy) (s : Store) : Visit → Outcome
  | .attach origin now request =>
    { store := s, headers := Cookie.attach request p (s.chosen ⟨p, origin⟩ now) }
  | .ingest origin now response =>
    let cookies := Cookie.accepted ⟨p, origin⟩ now response
    { store := s.addAll now cookies, accepted := cookies }
  | .edit change => { store := change.apply s }

def outcomes (p : Policy) : Store → List Visit → List Outcome
  | _, [] => []
  | s, visit :: rest => visit.outcome p s :: outcomes p (visit.outcome p s).store rest

def outcomesBy {α : Type} (outcome : Store → α → Outcome) : Store → List α → List Outcome
  | _, [] => []
  | s, a :: rest => outcome s a :: outcomesBy outcome (outcome s a).store rest

theorem outcomes_eq_outcomesBy (p : Policy) (s : Store) (visits : List Visit) :
    outcomes p s visits = outcomesBy (Visit.outcome p) s visits := by
  induction visits generalizing s with
  | nil => rfl
  | cons visit rest ih => exact congrArg (visit.outcome p s :: ·) (ih _)

/-- Sessions stay related from step to step if every step keeps their stores so. -/
theorem forall₂_outcomesBy {α : Type} {f g : Store → α → Outcome} {Fits : α → Prop}
    {Near : Store → Store → Prop} {EqualUnder : Outcome → Outcome → Prop} {steps : List α}
    (hstep : ∀ {s t a}, Near s t → Fits a → EqualUnder (f s a) (g t a) ∧ Near (f s a).store (g t a).store)
    (hfits : ∀ a ∈ steps, Fits a) {s t : Store} (h : Near s t) :
    List.Forall₂ EqualUnder (outcomesBy f s steps) (outcomesBy g t steps) := by
  induction steps generalizing s t with
  | nil => exact .nil
  | cons a rest ih =>
    obtain ⟨halike, hnear⟩ := hstep h (hfits a List.mem_cons_self)
    exact .cons halike (ih (fun b hb => hfits b (List.mem_cons_of_mem _ hb)) hnear)

theorem forall₂_outcomes {p q : Policy} {Fits : Visit → Prop} {Near : Store → Store → Prop}
    {EqualUnder : Outcome → Outcome → Prop} {visits : List Visit}
    (hvisit : ∀ {s t visit}, Near s t → Fits visit →
      EqualUnder (visit.outcome p s) (visit.outcome q t) ∧
        Near (visit.outcome p s).store (visit.outcome q t).store)
    (hfits : ∀ visit ∈ visits, Fits visit) {s t : Store} (h : Near s t) :
    List.Forall₂ EqualUnder (outcomes p s visits) (outcomes q t visits) := by
  rw [outcomes_eq_outcomesBy, outcomes_eq_outcomesBy]
  exact forall₂_outcomesBy hvisit hfits h

end Cookie

namespace Jar

variable {jar : Jar} {p : Cookie.Policy} {o : Cookie.Origin} {now : Instant}

/-- A request of an exchange takes its cookies along as a visit does. -/
theorem attach_eq_outcome {context : Context} {request : Request} {carrying : Carrying}
    (hrules : jar.rulesFor context request = .ok (some ⟨p, o⟩))
    (h : jar.attach context now request = .ok carrying) :
    carrying.request.headers =
      ((Cookie.Visit.attach o now request.headers).outcome p jar.store).headers := by
  unfold attach at h
  rw [hrules] at h
  obtain rfl := Except.ok.inj h
  rfl

theorem ingest_eq_outcome (jar : Jar) (now : Instant) (h : Headers) :
    jar.ingest (some ⟨p, o⟩) now h =
      (((Cookie.Visit.ingest o now h).outcome p jar.store).accepted,
        { jar with store := ((Cookie.Visit.ingest o now h).outcome p jar.store).store }) :=
  rfl

end Jar

end HttpSession
