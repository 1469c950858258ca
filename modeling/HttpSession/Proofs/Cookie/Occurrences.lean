import Mathlib.Data.List.Nodup
import Mathlib.Logic.Function.Basic
import HttpSession.Proofs.Cookie.Refinement

/-!
# Order and repetition of attributes

Each attribute sets its own part of a cookie, so all that counts of a list of attributes is, for every
name, the attribute that is taken: the last one of that name under the compatible rules, the first one
under the strict rules. A cookie is read exactly if all attributes that are looked at can be read, and
its parts are then known name by name (`Compatibility.ofElement_ok_iff`, `Strict.ofElement_ok_iff`).

Main statement: the order of attributes with different names does not count, the strict rules look at
the first attribute of each name only, and the compatible ones at the last, where an age wins over any
date (`ofElement_occurrences`).
-/

namespace HttpSession.Cookie

-- ---------------------------------------------------------------------------
-- Attributes by name
-- ---------------------------------------------------------------------------

/-- The attribute that counts for each name. -/
abbrev Named := Text → Option Attribute

def Named.note (n : Named) (a : Attribute) : Named := Function.update n a.name (some a)

def firstNamed (l : List Attribute) : Named := fun name => l.find? (·.name = name)

def lastNamed (l : List Attribute) : Named := firstNamed l.reverse

def firstEach (l : List Attribute) : List Attribute := l.eraseDupsBy fun a b => a.name = b.name

def lastEach (l : List Attribute) : List Attribute := (firstEach l.reverse).reverse

section
variable {a b : Attribute} {l l' : List Attribute} {name : Text}

theorem lastNamed_concat (l : List Attribute) (a : Attribute) :
    lastNamed (l ++ [a]) = (lastNamed l).note a := by
  funext name
  unfold lastNamed firstNamed Named.note
  rw [List.reverse_concat]
  by_cases hname : a.name = name
  · subst hname
    rw [Function.update_self, List.find?_cons_of_pos (by simp)]
  · rw [Function.update_of_ne (Ne.symm hname), List.find?_cons_of_neg (by simpa using hname)]

theorem firstEach_cons (a : Attribute) (l : List Attribute) :
    firstEach (a :: l) = a :: firstEach (l.filter (·.name ≠ a.name)) := by
  rw [firstEach, List.eraseDupsBy_cons, ← firstEach]
  simp

theorem firstOccurrences_filter (l : List Attribute) (name : Text) :
    Strict.firstOccurrences (l.filter (·.name ≠ name)) =
      (Strict.firstOccurrences l).filter (·.name ≠ name) := by
  induction l with
  | nil => rfl
  | cons a rest ih =>
    rw [Strict.firstOccurrences]
    by_cases ha : a.name = name
    · rw [List.filter_cons_of_neg (by simpa using ha), List.filter_cons_of_neg (by simpa using ha),
        List.filter_filter, ih, ha]
      simp
    · rw [List.filter_cons_of_pos (by simpa using ha), List.filter_cons_of_pos (by simpa using ha),
        Strict.firstOccurrences, ih, List.filter_filter, List.filter_filter]
      simp only [Bool.and_comm]

theorem firstOccurrences_eq (l : List Attribute) : Strict.firstOccurrences l = firstEach l := by
  -- on the length, for behind the head the list is a filtered one
  induction hn : l.length using Nat.strong_induction_on generalizing l with
  | _ n ih =>
    cases l with
    | nil => rfl
    | cons a rest =>
      have hlength : (rest.filter (·.name ≠ a.name)).length < n := by
        subst hn
        exact Nat.lt_succ_of_le (List.length_filter_le _ _)
      rw [firstEach_cons, ← ih _ hlength _ rfl, firstOccurrences_filter, Strict.firstOccurrences]

theorem find?_filter_name (hname : a.name ≠ name) :
    (l.filter (·.name ≠ a.name)).find? (·.name = name) = l.find? (·.name = name) := by
  rw [List.find?_filter]
  congr 1
  funext b
  by_cases hb : b.name = name <;> simp [hb, Ne.symm hname]

theorem firstNamed_firstEach (l : List Attribute) : firstNamed (firstEach l) = firstNamed l := by
  rw [← firstOccurrences_eq]
  funext name
  unfold firstNamed
  induction l with
  | nil => rfl
  | cons a rest ih =>
    rw [Strict.firstOccurrences]
    by_cases hname : a.name = name
    · rw [List.find?_cons_of_pos (by simpa using hname), List.find?_cons_of_pos (by simpa using hname)]
    · rw [List.find?_cons_of_neg (by simpa using hname), find?_filter_name hname, ih,
        List.find?_cons_of_neg (by simpa using hname)]

theorem nodup_firstEach (l : List Attribute) : ((firstEach l).map (·.name)).Nodup := by
  rw [← firstOccurrences_eq]
  induction l with
  | nil => exact List.nodup_nil
  | cons a rest ih =>
    rw [Strict.firstOccurrences, List.map_cons, List.nodup_cons]
    refine ⟨fun hmem => ?_, ih.sublist (List.filter_sublist.map _)⟩
    obtain ⟨b, hb, hname⟩ := List.mem_map.mp hmem
    exact of_decide_eq_true (List.mem_filter.mp hb).2 hname

theorem firstEach_eq_self (hl : (l.map (·.name)).Nodup) : firstEach l = l := by
  induction l with
  | nil => rfl
  | cons a rest ih =>
    obtain ⟨ha, hrest⟩ := List.nodup_cons.mp hl
    have hkept : rest.filter (·.name ≠ a.name) = rest :=
      List.filter_eq_self.mpr fun b hb =>
        decide_eq_true fun hname => ha (List.mem_map.mpr ⟨b, hb, hname⟩)
    rw [firstEach_cons, hkept, ih hrest]

theorem mem_and_name_of_firstNamed (h : firstNamed l name = some a) : a ∈ l ∧ a.name = name :=
  ⟨List.mem_of_find?_eq_some h, Attribute.name_of_find? h⟩

theorem firstNamed_eq_some_iff (hl : (l.map (·.name)).Nodup) :
    firstNamed l name = some a ↔ a ∈ l ∧ a.name = name := by
  refine ⟨mem_and_name_of_firstNamed, ?_⟩
  rintro ⟨ha, rfl⟩
  have hsome : (firstNamed l a.name).isSome = true := List.find?_isSome.mpr ⟨a, ha, decide_eq_true rfl⟩
  obtain ⟨b, hb⟩ := Option.isSome_iff_exists.mp hsome
  obtain ⟨hmem, hname⟩ := mem_and_name_of_firstNamed hb
  rw [hb, List.inj_on_of_nodup_map hl hmem ha hname]

theorem firstNamed_perm (hp : l.Perm l') (hl : (l.map (·.name)).Nodup) : firstNamed l = firstNamed l' := by
  have hl' : (l'.map (·.name)).Nodup := (hp.map _).nodup_iff.mp hl
  funext name
  refine Option.ext fun a => ?_
  rw [firstNamed_eq_some_iff hl, firstNamed_eq_some_iff hl', hp.mem_iff]

theorem lastNamed_eq_firstNamed (hl : (l.map (·.name)).Nodup) : lastNamed l = firstNamed l :=
  (firstNamed_perm (List.reverse_perm l).symm hl).symm

theorem lastNamed_lastEach (l : List Attribute) : lastNamed (lastEach l) = lastNamed l := by
  rw [lastNamed, lastEach, List.reverse_reverse, firstNamed_firstEach, lastNamed]

theorem mem_of_mem_firstEach (h : a ∈ firstEach l) : a ∈ l :=
  Strict.mem_of_mem_firstOccurrences (firstOccurrences_eq l ▸ h)

theorem mem_of_mem_lastEach (h : a ∈ lastEach l) : a ∈ l :=
  List.mem_reverse.mp (mem_of_mem_firstEach (List.mem_reverse.mp h))

end

-- ---------------------------------------------------------------------------
-- Reading attributes one by one
-- ---------------------------------------------------------------------------

/-- If every step depends on the attributes that count so far, and notes one attribute that it accepts,
then all that counts in the end is noted. -/
theorem foldlM_ok_iff {σ : Type} {step : σ → Attribute → Except Malformation σ} {state : Named → σ}
    {Accepts : Attribute → Prop}
    (hstep : ∀ n a s, step (state n) a = .ok s ↔ Accepts a ∧ s = state (n.note a))
    (l : List Attribute) (s : σ) :
    l.foldlM step (state (lastNamed [])) = .ok s ↔ (∀ a ∈ l, Accepts a) ∧ s = state (lastNamed l) := by
  induction l using List.reverseRecOn generalizing s with
  | nil =>
    constructor
    · intro h
      exact ⟨by simp, (Except.ok.inj h).symm⟩
    · rintro ⟨-, rfl⟩
      rfl
  | append_singleton l a ih =>
    have hone (s' : σ) : [a].foldlM step s' = step s' a := by
      rw [List.foldlM_cons]
      cases step s' a <;> rfl
    rw [List.foldlM_append, bind_ok_iff, lastNamed_concat]
    constructor
    · rintro ⟨s', hbefore, hlast⟩
      obtain ⟨hl, rfl⟩ := (ih s').mp hbefore
      obtain ⟨ha, rfl⟩ := (hstep _ a s).mp ((hone _).symm.trans hlast)
      refine ⟨fun b hb => ?_, rfl⟩
      rcases List.mem_append.mp hb with hb | hb
      · exact hl b hb
      · exact List.mem_singleton.mp hb ▸ ha
    · rintro ⟨hl, rfl⟩
      refine ⟨_, (ih _).mpr ⟨fun b hb => hl b (List.mem_append_left _ hb), rfl⟩, ?_⟩
      exact (hone _).trans ((hstep _ a _).mpr ⟨hl a (by simp), rfl⟩)

theorem ok_iff {ε α : Type} {P : Prop} {x y : α} (hP : P) :
    (Except.ok x : Except ε α) = .ok y ↔ P ∧ y = x :=
  ⟨fun h => ⟨hP, (Except.ok.inj h).symm⟩, fun h => congrArg _ h.2.symm⟩

theorem error_iff {ε α : Type} {P : Prop} {m : ε} {x y : α} (hP : ¬ P) :
    Except.error m = .ok y ↔ P ∧ y = x :=
  ⟨nofun, fun h => absurd h.1 hP⟩

theorem map_isOk_iff {ε α β : Type} {reading : Except ε α} {f : α → β} {b : β} (g : Option α → β)
    (hg : ∀ a, g (some a) = f a) :
    reading.map f = .ok b ↔ reading.isOk = true ∧ b = g reading.toOption := by
  cases reading with
  | error m => exact error_iff nofun
  | ok a => exact (hg a).symm ▸ ok_iff rfl

-- ---------------------------------------------------------------------------
-- The compatible rules
-- ---------------------------------------------------------------------------

namespace Compatibility

def knownNames : List Text := ["path", "domain", "max-age", "expires", "secure", "comment", "version"]

def Accepts (now : Instant) (a : Attribute) : Prop :=
  if a.name = "domain" then a.value.getD [] ≠ []
  else if a.name = "max-age" then (readMaxAge now a.value).isOk = true
  else if a.name = "expires" then (readDate? (a.value.getD [])).isSome = true
  else if a.name = "version" then (readVersion a.value).isOk = true
  else True

instance (now : Instant) (a : Attribute) : Decidable (Accepts now a) := by
  unfold Accepts
  infer_instance

def drafted (now : Instant) (origin : Origin) (e : Element) (n : Named) : Draft where
  cookie :=
    { name := e.name
      value := e.value
      domain := (n "domain").elim origin.host.lower fun a => (a.value.getD []).lower
      domainGiven := (n "domain").isSome
      path := (n "path").elim (defaultPath origin.path) fun a =>
        if a.value.getD [] = [] then ['/'] else a.value.getD []
      pathGiven := (n "path").isSome
      expiry := (n "expires").bind fun a => readDate? (a.value.getD [])
      secure := (n "secure").isSome
      comment := (n "comment").bind (·.value)
      version := (n "version").elim 0 fun a => (readVersion a.value).toOption.getD 0 }
  maxAge := (n "max-age").map fun a => (readMaxAge now a.value).toOption.join

section
variable {now : Instant} {origin : Origin} {e : Element} {a : Attribute} {n : Named} {d : Draft}

theorem Draft.apply_domain (ha : a.name = "domain") : (drafted now origin e n).apply now a = .ok d ↔
    Accepts now a ∧ d = drafted now origin e (n.note a) := by
  unfold Draft.apply Accepts Named.note
  rw [ha]
  obtain ⟨name, value⟩ := a
  match value with
  | none => exact error_iff (· rfl)
  | some [] => exact error_iff (· rfl)
  | some (char :: rest) => exact ok_iff (List.cons_ne_nil char rest)

theorem Draft.apply_maxAge (ha : a.name = "max-age") : (drafted now origin e n).apply now a = .ok d ↔
    Accepts now a ∧ d = drafted now origin e (n.note a) := by
  unfold Draft.apply Accepts Named.note
  rw [ha]
  exact map_isOk_iff (fun read => { drafted now origin e n with maxAge := some read.join }) fun _ => rfl

theorem Draft.apply_expires (ha : a.name = "expires") : (drafted now origin e n).apply now a = .ok d ↔
    Accepts now a ∧ d = drafted now origin e (n.note a) := by
  have hnote : drafted now origin e (n.note a) = { drafted now origin e n with
      cookie := { (drafted now origin e n).cookie with expiry := readDate? (a.value.getD []) } } := by
    unfold Named.note
    rw [ha]
    rfl
  rw [hnote]
  unfold Draft.apply Accepts
  rw [ha]
  cases readDate? (a.value.getD []) with
  | none => exact error_iff nofun
  | some expiry => exact ok_iff rfl

theorem Draft.apply_version (ha : a.name = "version") : (drafted now origin e n).apply now a = .ok d ↔
    Accepts now a ∧ d = drafted now origin e (n.note a) := by
  unfold Draft.apply Accepts Named.note
  rw [ha]
  exact map_isOk_iff (fun read => { drafted now origin e n with
    cookie := { (drafted now origin e n).cookie with version := read.getD 0 } }) fun _ => rfl

theorem Draft.apply_unknown (ha : a.name ∉ knownNames) :
    (drafted now origin e n).apply now a = .ok d ↔
      Accepts now a ∧ d = drafted now origin e (n.note a) := by
  simp only [knownNames, List.mem_cons, List.not_mem_nil, or_false, not_or] at ha
  obtain ⟨hpath, hdomain, hmaxAge, hexpires, hsecure, hcomment, hversion⟩ := ha
  have hnote : drafted now origin e (n.note a) = drafted now origin e n := by
    unfold drafted Named.note
    rw [Function.update_of_ne (Ne.symm hpath), Function.update_of_ne (Ne.symm hdomain),
      Function.update_of_ne (Ne.symm hmaxAge), Function.update_of_ne (Ne.symm hexpires),
      Function.update_of_ne (Ne.symm hsecure), Function.update_of_ne (Ne.symm hcomment),
      Function.update_of_ne (Ne.symm hversion)]
  rw [hnote]
  simp only [Draft.apply, Accepts, if_neg hpath, if_neg hdomain, if_neg hmaxAge, if_neg hexpires,
    if_neg hsecure, if_neg hcomment, if_neg hversion]
  exact ok_iff trivial

/-- An attribute that can be read counts from now on for its name. -/
theorem Draft.apply_drafted_iff (now : Instant) (origin : Origin) (e : Element) (n : Named)
    (a : Attribute) (d : Draft) : (drafted now origin e n).apply now a = .ok d ↔
      Accepts now a ∧ d = drafted now origin e (n.note a) := by
  by_cases hknown : a.name ∈ knownNames
  · simp only [knownNames, List.mem_cons, List.not_mem_nil, or_false] at hknown
    obtain hpath | hdomain | hmaxAge | hexpires | hsecure | hcomment | hversion := hknown
    · unfold Draft.apply Accepts Named.note
      rw [hpath]
      exact ok_iff trivial
    · exact apply_domain hdomain
    · exact apply_maxAge hmaxAge
    · exact apply_expires hexpires
    · unfold Draft.apply Accepts Named.note
      rw [hsecure]
      exact ok_iff trivial
    · unfold Draft.apply Accepts Named.note
      rw [hcomment]
      exact ok_iff trivial
    · exact apply_version hversion
  · exact apply_unknown hknown

/-- The compatible rules read a cookie if they can read all attributes, and the last one of each name
counts. -/
theorem ofElement_ok_iff {c : Cookie} : ofElement now origin e = .ok c ↔
    (∀ a ∈ e.attributes, Accepts now a) ∧ c = (drafted now origin e (lastNamed e.attributes)).finish := by
  have hfold := foldlM_ok_iff (Draft.apply_drafted_iff now origin e) e.attributes
  unfold ofElement
  rw [map_ok_iff]
  constructor
  · rintro ⟨d, hd, rfl⟩
    obtain ⟨haccepts, rfl⟩ := (hfold d).mp hd
    exact ⟨haccepts, rfl⟩
  · rintro ⟨haccepts, rfl⟩
    exact ⟨_, (hfold _).mpr ⟨haccepts, rfl⟩, rfl⟩

end

end Compatibility

-- ---------------------------------------------------------------------------
-- The strict rules
-- ---------------------------------------------------------------------------

namespace Strict

def knownNames : List Text :=
  ["path", "domain", "port", "max-age", "secure", "comment", "discard", "version"]

def unquoted (a : Attribute) : Option Text := a.value.map Text.unquote

def marked (a : Attribute) : Option Text := (unquoted a).filter (·.trim ≠ [])

def Accepts (now : Instant) (a : Attribute) : Prop :=
  if a.name = "path" then a.value.isSome = true
  else if a.name = "domain" then (marked a).isSome = true
  else if a.name = "port" then ∀ written, marked a = some written → (readPorts written).isOk = true
  else if a.name = "max-age" then (readMaxAge now (unquoted a)).isOk = true
  else if a.name = "version" then (readVersion (unquoted a)).isOk = true
  else True

def dotted (domain : Text) : Text := if domain.head? = some '.' then domain else '.' :: domain

def assembled (now : Instant) (fromSetCookie2 : Bool) (origin : Origin) (e : Element) (n : Named) :
    Cookie where
  name := e.name
  value := e.value.unquote
  domain := (n "domain").elim (effectiveHost origin.host).lower fun a =>
    (dotted ((marked a).getD [])).lower
  domainGiven := (n "domain").isSome
  path := (n "path").elim (defaultPath origin.path) fun a =>
    if ((unquoted a).getD []).trim = [] then ['/'] else (unquoted a).getD []
  pathGiven := (n "path").isSome
  ports := (n "port").map fun a =>
    (marked a).elim [origin.port] fun written => (readPorts written).toOption.getD []
  portGiven := (n "port").isSome
  expiry := (n "max-age").bind fun a => (readMaxAge now (unquoted a)).toOption.join
  secure := (n "secure").isSome
  comment := (n "comment").bind unquoted
  discard := (n "discard").isSome
  version := (n "version").elim 0 fun a => (readVersion (unquoted a)).toOption.getD 0
  fromSetCookie2 := fromSetCookie2

section
variable {now : Instant} {origin : Origin} {e : Element} {a : Attribute} {n : Named} {c : Cookie}
  {fromSetCookie2 : Bool}

theorem apply_path (ha : a.name = "path") :
    apply now origin (assembled now fromSetCookie2 origin e n) a = .ok c ↔
      Accepts now a ∧ c = assembled now fromSetCookie2 origin e (n.note a) := by
  unfold apply Accepts Named.note
  rw [ha]
  obtain ⟨name, value⟩ := a
  cases value with
  | none => exact error_iff nofun
  | some path => exact ok_iff rfl

theorem apply_domain (ha : a.name = "domain") :
    apply now origin (assembled now fromSetCookie2 origin e n) a = .ok c ↔
      Accepts now a ∧ c = assembled now fromSetCookie2 origin e (n.note a) := by
  have hnote : assembled now fromSetCookie2 origin e (n.note a) =
      { assembled now fromSetCookie2 origin e n with
        domain := (dotted ((marked a).getD [])).lower, domainGiven := true } := by
    unfold Named.note
    rw [ha]
    rfl
  rw [hnote]
  unfold apply Accepts marked unquoted
  rw [ha]
  dsimp only
  generalize (a.value.map Text.unquote).filter (·.trim ≠ []) = value
  cases value with
  | none => exact error_iff nofun
  | some domain => exact ok_iff rfl

theorem apply_port (ha : a.name = "port") :
    apply now origin (assembled now fromSetCookie2 origin e n) a = .ok c ↔
      Accepts now a ∧ c = assembled now fromSetCookie2 origin e (n.note a) := by
  have hnote : assembled now fromSetCookie2 origin e (n.note a) =
      { assembled now fromSetCookie2 origin e n with
        ports := some ((marked a).elim [origin.port] fun written =>
          (readPorts written).toOption.getD [])
        portGiven := true } := by
    unfold Named.note
    rw [ha]
    rfl
  rw [hnote]
  unfold apply Accepts marked unquoted
  rw [ha]
  dsimp only
  generalize (a.value.map Text.unquote).filter (·.trim ≠ []) = value
  cases value with
  | none => exact ok_iff nofun
  | some written =>
    show (readPorts written).map _ = .ok c ↔
      (∀ w, some written = some w → (readPorts w).isOk = true) ∧
        c = { assembled now fromSetCookie2 origin e n with
          ports := some ((readPorts written).toOption.getD []), portGiven := true }
    have hwritten (P : Text → Prop) : (∀ w, some written = some w → P w) ↔ P written := by simp
    rw [hwritten]
    exact map_isOk_iff (fun read => { assembled now fromSetCookie2 origin e n with
      ports := some (read.getD []), portGiven := true }) fun _ => rfl

theorem apply_maxAge (ha : a.name = "max-age") :
    apply now origin (assembled now fromSetCookie2 origin e n) a = .ok c ↔
      Accepts now a ∧ c = assembled now fromSetCookie2 origin e (n.note a) := by
  unfold apply Accepts Named.note
  rw [ha]
  exact map_isOk_iff (fun read => { assembled now fromSetCookie2 origin e n with expiry := read.join })
    fun _ => rfl

theorem apply_version (ha : a.name = "version") :
    apply now origin (assembled now fromSetCookie2 origin e n) a = .ok c ↔
      Accepts now a ∧ c = assembled now fromSetCookie2 origin e (n.note a) := by
  unfold apply Accepts Named.note
  rw [ha]
  exact map_isOk_iff (fun read => { assembled now fromSetCookie2 origin e n with version := read.getD 0 })
    fun _ => rfl

theorem apply_unknown (ha : a.name ∉ knownNames) :
    apply now origin (assembled now fromSetCookie2 origin e n) a = .ok c ↔
      Accepts now a ∧ c = assembled now fromSetCookie2 origin e (n.note a) := by
  simp only [knownNames, List.mem_cons, List.not_mem_nil, or_false, not_or] at ha
  obtain ⟨hpath, hdomain, hport, hmaxAge, hsecure, hcomment, hdiscard, hversion⟩ := ha
  have hnote : assembled now fromSetCookie2 origin e (n.note a) =
      assembled now fromSetCookie2 origin e n := by
    unfold assembled Named.note
    rw [Function.update_of_ne (Ne.symm hpath), Function.update_of_ne (Ne.symm hdomain),
      Function.update_of_ne (Ne.symm hport), Function.update_of_ne (Ne.symm hmaxAge),
      Function.update_of_ne (Ne.symm hsecure), Function.update_of_ne (Ne.symm hcomment),
      Function.update_of_ne (Ne.symm hdiscard), Function.update_of_ne (Ne.symm hversion)]
  rw [hnote]
  simp only [apply, Accepts, if_neg hpath, if_neg hdomain, if_neg hport, if_neg hmaxAge,
    if_neg hsecure, if_neg hcomment, if_neg hdiscard, if_neg hversion]
  exact ok_iff trivial

/-- An attribute that can be read counts from now on for its name. -/
theorem apply_assembled_iff (now : Instant) (fromSetCookie2 : Bool) (origin : Origin) (e : Element)
    (n : Named) (a : Attribute) (c : Cookie) :
    apply now origin (assembled now fromSetCookie2 origin e n) a = .ok c ↔
      Accepts now a ∧ c = assembled now fromSetCookie2 origin e (n.note a) := by
  by_cases hknown : a.name ∈ knownNames
  · simp only [knownNames, List.mem_cons, List.not_mem_nil, or_false] at hknown
    obtain hpath | hdomain | hport | hmaxAge | hsecure | hcomment | hdiscard | hversion := hknown
    · exact apply_path hpath
    · exact apply_domain hdomain
    · exact apply_port hport
    · exact apply_maxAge hmaxAge
    · unfold apply Accepts Named.note
      rw [hsecure]
      exact ok_iff trivial
    · unfold apply Accepts Named.note
      rw [hcomment]
      exact ok_iff trivial
    · unfold apply Accepts Named.note
      rw [hdiscard]
      exact ok_iff trivial
    · exact apply_version hversion
  · exact apply_unknown hknown

/-- The strict rules read a cookie if they can read the first attribute of each name, which counts. -/
theorem ofElement_ok_iff : ofElement now fromSetCookie2 origin e = .ok c ↔
    (∀ a ∈ firstEach e.attributes, Accepts now a) ∧
      c = assembled now fromSetCookie2 origin e (firstNamed e.attributes) := by
  have hfold := foldlM_ok_iff (apply_assembled_iff now fromSetCookie2 origin e)
    (firstEach e.attributes) c
  rw [lastNamed_eq_firstNamed (nodup_firstEach _), firstNamed_firstEach] at hfold
  rw [ofElement, firstOccurrences_eq]
  exact hfold

end

end Strict

-- ---------------------------------------------------------------------------
-- Elements
-- ---------------------------------------------------------------------------

section
variable {now : Instant} {origin : Origin} {e : Element} {c : Cookie} {attributes : List Attribute}

theorem Compatibility.ofElement_perm (hp : e.attributes.Perm attributes)
    (hn : (e.attributes.map (·.name)).Nodup) :
    ofElement now origin { e with attributes } = .ok c ↔ ofElement now origin e = .ok c := by
  have hnamed : lastNamed attributes = lastNamed e.attributes := by
    rw [lastNamed_eq_firstNamed hn, lastNamed_eq_firstNamed ((hp.map _).nodup_iff.mp hn),
      firstNamed_perm hp hn]
  rw [ofElement_ok_iff, ofElement_ok_iff, hnamed]
  simp only [hp.mem_iff]
  rfl

theorem Strict.ofElement_perm {fromSetCookie2 : Bool} (hp : e.attributes.Perm attributes)
    (hn : (e.attributes.map (·.name)).Nodup) :
    ofElement now fromSetCookie2 origin { e with attributes } = .ok c ↔
      ofElement now fromSetCookie2 origin e = .ok c := by
  rw [ofElement_ok_iff, ofElement_ok_iff, firstEach_eq_self hn,
    firstEach_eq_self ((hp.map _).nodup_iff.mp hn), firstNamed_perm hp hn]
  simp only [hp.mem_iff]
  rfl

theorem Strict.ofElement_firstEach (now : Instant) (fromSetCookie2 : Bool) (origin : Origin)
    (e : Element) :
    ofElement now fromSetCookie2 origin { e with attributes := firstEach e.attributes } =
      ofElement now fromSetCookie2 origin e := by
  unfold ofElement
  simp only [firstOccurrences_eq, firstEach_eq_self (nodup_firstEach e.attributes)]
  rfl

theorem Compatibility.ofElement_lastEach (haccepts : ∀ a ∈ e.attributes, Accepts now a) :
    ofElement now origin { e with attributes := lastEach e.attributes } =
      .ok (drafted now origin e (lastNamed e.attributes)).finish := by
  rw [ofElement_ok_iff, lastNamed_lastEach]
  exact ⟨fun a ha => haccepts a (mem_of_mem_lastEach ha), rfl⟩

/-- The age that counts is the expiry of a cookie, whatever dates there are. -/
theorem Compatibility.expiry_finish {a : Attribute} (haccepts : ∀ a ∈ e.attributes, Accepts now a)
    (ha : lastNamed e.attributes "max-age" = some a) :
    readMaxAge now a.value = .ok (drafted now origin e (lastNamed e.attributes)).finish.expiry := by
  obtain ⟨hmem, hname⟩ := mem_and_name_of_firstNamed ha
  have hread : (readMaxAge now a.value).isOk = true := by
    have haccept := haccepts a (List.mem_reverse.mp hmem)
    unfold Accepts at haccept
    rw [hname] at haccept
    exact haccept
  obtain ⟨expiry, hexpiry⟩ := exists_of_isOk hread
  unfold Draft.finish drafted
  rw [ha]
  show _ = Except.ok (readMaxAge now a.value).toOption.join
  rw [hexpiry]
  rfl

end

/-- The order of attributes does not count if their names are different. Under the strict rules the
first attribute of each name counts, even if later ones cannot be read; under the compatible ones, if
all can be read, the last one counts, and the last age wins over all dates. -/
theorem ofElement_occurrences (now : Instant) (origin : Origin) (e : Element) :
    (∀ attributes : List Attribute, e.attributes.Perm attributes → (e.attributes.map (·.name)).Nodup →
        ∀ c, (Compatibility.ofElement now origin { e with attributes } = .ok c ↔
            Compatibility.ofElement now origin e = .ok c) ∧
          ∀ fromSetCookie2, Strict.ofElement now fromSetCookie2 origin { e with attributes } = .ok c ↔
            Strict.ofElement now fromSetCookie2 origin e = .ok c) ∧
      (∀ fromSetCookie2,
        Strict.ofElement now fromSetCookie2 origin { e with attributes := firstEach e.attributes } =
          Strict.ofElement now fromSetCookie2 origin e) ∧
        ((∀ a ∈ e.attributes, Compatibility.Accepts now a) →
          ∃ c, Compatibility.ofElement now origin e = .ok c ∧
            Compatibility.ofElement now origin { e with attributes := lastEach e.attributes } = .ok c ∧
              ∀ a, lastNamed e.attributes "max-age" = some a →
                readMaxAge now a.value = .ok c.expiry) := by
  refine ⟨fun attributes hp hn c => ⟨?_, fun fromSetCookie2 => ?_⟩, fun fromSetCookie2 => ?_, ?_⟩
  · exact Compatibility.ofElement_perm hp hn
  · exact Strict.ofElement_perm hp hn
  · exact Strict.ofElement_firstEach now fromSetCookie2 origin e
  · intro haccepts
    refine ⟨_, Compatibility.ofElement_ok_iff.mpr ⟨haccepts, rfl⟩,
      Compatibility.ofElement_lastEach haccepts, fun a ha => ?_⟩
    exact Compatibility.expiry_finish haccepts ha

def agedElement : Element :=
  ⟨"a", "1", [⟨"max-age", some "0"⟩, ⟨"expires", some "Wed, 21 Oct 2015 07:28:00 GMT"⟩,
    ⟨"path", some "/x"⟩]⟩

def reagedElement : Element :=
  ⟨"a", "1", [⟨"max-age", some "60"⟩, ⟨"path", some "/x"⟩, ⟨"max-age", some "0"⟩,
    ⟨"expires", some "Wed, 21 Oct 2015 07:28:00 GMT"⟩, ⟨"path", some "/y"⟩]⟩

theorem ofElement_occurrences_aged :
    (∀ c, Compatibility.ofElement .epoch (.of "a.example" 80 "/x" false)
          { agedElement with attributes := agedElement.attributes.reverse } = .ok c ↔
        Compatibility.ofElement .epoch (.of "a.example" 80 "/x" false) agedElement = .ok c) ∧
      ∃ c, Compatibility.ofElement .epoch (.of "a.example" 80 "/x" false) reagedElement = .ok c ∧
        Compatibility.ofElement .epoch (.of "a.example" 80 "/x" false) { reagedElement with
          attributes := [⟨"max-age", some "0"⟩,
            ⟨"expires", some "Wed, 21 Oct 2015 07:28:00 GMT"⟩, ⟨"path", some "/y"⟩] } = .ok c ∧
          readMaxAge .epoch (some ("0" : Text)) = .ok c.expiry := by
  obtain ⟨hperm, -, -⟩ := ofElement_occurrences .epoch (.of "a.example" 80 "/x" false) agedElement
  obtain ⟨-, -, hlast⟩ := ofElement_occurrences .epoch (.of "a.example" 80 "/x" false) reagedElement
  refine ⟨fun c => (hperm _ (List.reverse_perm _).symm (by decide +kernel) c).1, ?_⟩
  obtain ⟨c, hread, hkept, hage⟩ := hlast (by decide +kernel)
  have hlasts : lastEach reagedElement.attributes = [⟨"max-age", some "0"⟩,
      ⟨"expires", some "Wed, 21 Oct 2015 07:28:00 GMT"⟩, ⟨"path", some "/y"⟩] := by
    decide +kernel
  rw [hlasts] at hkept
  exact ⟨c, hread, hkept, hage ⟨"max-age", some "0"⟩ (by decide +kernel)⟩

end HttpSession.Cookie
