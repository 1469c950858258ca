import HttpSession.Cookie.Strict
import HttpSession.Proofs.Text.Offsets

/-!
# Hosts and paths by offsets

The strict policy and the matching of paths, with every cut at an offset in bytes. `none` stands for a cut
behind the end or inside a character, for a byte that is not there, and for a difference below zero.

Main statement: none of this happens, whatever the cookie and the origin (`always_inside`), because each cut
stands behind a check that makes it one. The check for one label alone does not: it cuts a host wherever it
is told to, and its callers ask first whether the host ends with the domain (`isOneLabelAbove?_eq`).
-/

namespace HttpSession.Cookie.ByOffset

variable {host domain request path : Text}

def minus? (a b : Nat) : Option Nat := if b ≤ a then some (a - b) else none

theorem minus?_size (before after : Text) :
    minus? (before ++ after).size after.size = some before.size := by
  rw [minus?, Text.size_append, if_pos (Nat.le_add_left _ _), Nat.add_sub_cancel]

-- ---------------------------------------------------------------------------
-- Paths
-- ---------------------------------------------------------------------------

def defaultPath? (request : Text) : Option Text :=
  match request.lastOffset? (· = '/') with
  | none | some 0 => some "/"
  | some place => request.upTo? place

def folder? (path : Text) : Option Text :=
  let path : Text := if path = [] then "/" else path
  if 1 < path.size ∧ path.getLast? = some '/' then (minus? path.size 1).bind path.upTo? else some path

def pathMatch? (request path : Text) : Option Bool :=
  (folder? path).bind fun folder =>
    if ¬ folder.isPrefixOf request then some false
    else if request.size = folder.size ∨ folder.getLast? = some '/' then some true
    else (request.byteAt? folder.size).map (· = 0x2F)

theorem defaultPath?_eq (request : Text) : defaultPath? request = some (defaultPath request) := by
  rw [defaultPath?, defaultPath, Text.lastOffset?]
  cases hcut : request.cutLast? (· = '/') with
  | none => rfl
  | some parts =>
    obtain ⟨before, after⟩ := parts
    obtain ⟨c, -, rfl⟩ := Text.eq_of_cutLast? hcut
    cases before with
    | nil => rfl
    | cons d before =>
      obtain ⟨n, hn⟩ : ∃ n, Text.size (d :: before) = n + 1 :=
        Nat.exists_eq_add_one.mpr (Text.size_pos (List.cons_ne_nil d before))
      simp only [Option.map_some, hn]
      rw [← hn, Text.upTo?_size]

theorem folder?_eq (path : Text) : folder? path = some (folder path) := by
  by_cases hroot : path = [] ∨ path = ['/']
  · rcases hroot with rfl | rfl <;> rfl
  · rw [folder, if_neg hroot]
    rw [not_or] at hroot
    simp only [folder?, if_neg hroot.1]
    cases hslash : path.before? ['/'] with
    | none =>
      have hlast : path.getLast? ≠ some '/' := fun h => by
        obtain ⟨init, hinit⟩ := List.getLast?_eq_some_iff.mp h
        rw [Text.before?_eq_some_iff.mpr hinit] at hslash
        cases hslash
      rw [if_neg fun h => hlast h.2]
      rfl
    | some init =>
      obtain rfl := Text.before?_eq_some_iff.mp hslash
      have hne : init ≠ [] := by
        rintro rfl
        exact hroot.2 rfl
      have hpos : 0 < init.size := Text.size_pos hne
      have hlong : 1 < (init ++ ['/']).size := by
        rw [Text.size_append]
        exact Nat.lt_add_of_pos_left hpos
      have hminus : minus? (init ++ ['/']).size 1 = some init.size := minus?_size init ['/']
      rw [if_pos ⟨hlong, List.getLast?_concat⟩, hminus, Option.bind_some, Text.upTo?_size]
      rfl

theorem pathMatch?_eq (request path : Text) : pathMatch? request path = some (pathMatch request path) := by
  rw [pathMatch?, folder?_eq, Option.bind_some, pathMatch]
  generalize folder path = folder
  cases hafter : request.after? folder with
  | none =>
    have hprefix : ¬ folder.isPrefixOf request = true := fun h => by
      obtain ⟨rest, hrest⟩ := List.isPrefixOf_iff_prefix.mp h
      rw [Text.after?_eq_some_iff.mpr hrest.symm] at hafter
      cases hafter
    rw [if_pos hprefix]
  | some rest =>
    obtain rfl := Text.after?_eq_some_iff.mp hafter
    have hprefix : folder.isPrefixOf (folder ++ rest) = true :=
      List.isPrefixOf_iff_prefix.mpr (List.prefix_append folder rest)
    rw [if_neg (not_not.mpr hprefix)]
    cases rest with
    | nil => simp
    | cons c rest =>
      have hlonger : (folder ++ c :: rest).size ≠ folder.size := by
        have hpos : 0 < Text.size (c :: rest) := Text.size_pos (List.cons_ne_nil c rest)
        rw [Text.size_append]
        omega
      by_cases hlast : folder.getLast? = some '/'
      · simp [hlast]
      · have hbyte := Text.map_byteAt?_zero (d := '/') (by decide) c rest
        rw [if_neg (not_or.mpr ⟨hlonger, hlast⟩), Text.byteAt?_size]
        simpa [hlast] using hbyte

-- ---------------------------------------------------------------------------
-- Domains
-- ---------------------------------------------------------------------------

def isOneLabelAbove? (host domain : Text) : Option Bool :=
  if domain.size ≤ host.size then
    ((minus? host.size domain.size).bind host.upTo?).map fun lead => !lead.contains '.'
  else some false

def hasEmbeddedDot? (domain : Text) : Option Bool :=
  (domain.from? 1).bind fun behind =>
    match behind.offset? (· = '.') with
    | none => some false
    | some place => (minus? domain.size 1).map fun last => place + 1 ≠ last

theorem exists_of_domainMatch (h : Strict.domainMatch host domain = true) :
    ∃ lead, host = lead ++ domain := by
  simp only [Strict.domainMatch, Bool.or_eq_true, decide_eq_true_eq, Bool.and_eq_true,
    List.isSuffixOf_iff_suffix] at h
  rcases h with rfl | ⟨-, lead, rfl⟩
  · exact ⟨[], rfl⟩
  · exact ⟨lead, rfl⟩

/-- Before a domain that a host matches there is a place to cut the host. -/
theorem isOneLabelAbove?_eq (h : Strict.domainMatch host domain = true) :
    isOneLabelAbove? host domain = some (Strict.isOneLabelAbove host domain) := by
  obtain ⟨lead, rfl⟩ := exists_of_domainMatch h
  rw [isOneLabelAbove?, if_pos (by simp), minus?_size, Option.bind_some, Text.upTo?_size]
  simp [Strict.isOneLabelAbove]

/-- Without the match there may be none: here the cut would go through a character. -/
example : isOneLabelAbove? "é" "a" = none := by decide

theorem hasEmbeddedDot?_eq (h : domain.head? = some '.') :
    hasEmbeddedDot? domain = some (Strict.hasEmbeddedDot domain) := by
  obtain ⟨behind, rfl⟩ := List.head?_eq_some_iff.mp h
  have hfrom : Text.from? ('.' :: behind) 1 = some behind := Text.from?_size ['.'] behind
  rw [hasEmbeddedDot?, hfrom, Option.bind_some, Strict.hasEmbeddedDot, List.tail_cons, Text.offset?]
  cases hcut : Text.cut? (· = '.') behind with
  | none =>
    have hnone : '.' ∉ behind.dropLast := fun hc => by
      simpa using Text.cut?_eq_none_iff.mp hcut '.' (List.dropLast_subset _ hc)
    simp [hnone]
  | some parts =>
    obtain ⟨before, after⟩ := parts
    obtain ⟨c, hc, rfl, hbefore⟩ := Text.eq_of_cut? hcut
    obtain rfl := of_decide_eq_true hc
    have hone : Char.utf8Size '.' = 1 := rfl
    have hlast : minus? (Text.size ('.' :: (before ++ '.' :: after))) 1 =
        some (before.size + 1 + after.size) := by
      simp only [minus?, Text.size_cons, Text.size_append, hone]
      rw [if_pos (by omega)]
      exact congrArg some (by omega)
    simp only [Option.map_some, hlast]
    cases after with
    | nil =>
      have hnone : '.' ∉ before := fun hc => by simpa using hbefore '.' hc
      simp [hnone]
    | cons d after =>
      simp [d.utf8Size_pos.ne']

-- ---------------------------------------------------------------------------
-- Cookies
-- ---------------------------------------------------------------------------

def validateDomain? (c : Cookie) (host : Text) : Option (Except Rejection Unit) :=
  if ¬ c.domainGiven then
    some (if c.domain = host then .ok () else .error (.foreignDomain c.domain host))
  else if c.domain.head? ≠ some '.' then some (.error (.dotless c.domain))
  else
    (hasEmbeddedDot? c.domain).bind fun embedded =>
      if ¬ embedded ∧ c.domain ≠ ".local" then some (.error (.noEmbeddedDot c.domain))
      else if ¬ Strict.domainMatch host c.domain then some (.error (.outsideDomain c.domain host))
      else
        (isOneLabelAbove? host c.domain).map fun above : Bool =>
          if ¬ above then .error (.dotsBeforeDomain c.domain) else .ok ()

def validate? (c : Cookie) (origin : Origin) : Option (Except Rejection Unit) :=
  if c.fromSetCookie2 ∧ c.version = 0 then some (.error .unversioned)
  else
    (validateDomain? c (Strict.effectiveHost origin.host)).bind fun
      | .error rejection => some (.error rejection)
      | .ok () =>
        if ¬ Strict.allowsPort c origin.port then some (.error .foreignPort)
        else
          (pathMatch? origin.path c.path).map fun below : Bool =>
            if ¬ below then .error (.foreignPath c.path origin.path) else .ok ()

def isSentTo? (c : Cookie) (origin : Origin) : Option Bool :=
  let host := Strict.effectiveHost origin.host
  if ¬ Strict.domainMatch host c.domain then some false
  else
    (isOneLabelAbove? host c.domain).bind fun above =>
      if ¬ (above ∧ Strict.allowsPort c origin.port) then some false
      else (pathMatch? origin.path c.path).map fun below => below && (!c.secure || origin.secure)

theorem validateDomain?_eq (c : Cookie) (host : Text) :
    validateDomain? c host = some (Strict.validateDomain c host) := by
  rw [validateDomain?, Strict.validateDomain]
  by_cases hdot : c.domain.head? = some '.'
  · rw [hasEmbeddedDot?_eq hdot, Option.bind_some]
    by_cases hmatch : Strict.domainMatch host c.domain = true
    · rw [isOneLabelAbove?_eq hmatch, Option.map_some]
      simp only [apply_ite some]
    · rw [if_pos hmatch, if_pos hmatch]
      simp only [apply_ite some]
  · rw [if_pos hdot, if_pos hdot]
    simp only [apply_ite some]

theorem validate?_eq (c : Cookie) (origin : Origin) :
    validate? c origin = some (Strict.validate c origin) := by
  rw [validate?, Strict.validate, validateDomain?_eq, Option.bind_some, pathMatch?_eq, Option.map_some]
  by_cases hversion : c.fromSetCookie2 = true ∧ c.version = 0
  · simp [hversion, bind, Except.bind, throw, throwThe, MonadExceptOf.throw]
  · cases hdomain : Strict.validateDomain c (Strict.effectiveHost origin.host) with
    | error rejection => simp [hversion, bind, Except.bind]
    | ok u =>
      by_cases hport : Strict.allowsPort c origin.port = true <;>
        by_cases hpath : pathMatch origin.path c.path = true <;>
        simp [hversion, hport, hpath, bind, Except.bind, pure, Except.pure, throw, throwThe,
          MonadExceptOf.throw]

theorem isSentTo?_eq (c : Cookie) (origin : Origin) :
    isSentTo? c origin = some (Strict.isSentTo c origin) := by
  rw [isSentTo?, Strict.isSentTo]
  by_cases hmatch : Strict.domainMatch (Strict.effectiveHost origin.host) c.domain = true
  · rw [if_neg (not_not.mpr hmatch), isOneLabelAbove?_eq hmatch, Option.bind_some, pathMatch?_eq,
      Option.map_some]
    cases habove : Strict.isOneLabelAbove (Strict.effectiveHost origin.host) c.domain <;>
      cases hport : Strict.allowsPort c origin.port <;> simp [hmatch]
  · simp [hmatch]

/-- Whatever the cookie and the origin, no cut leaves a host or a path. -/
theorem always_inside :
    (∀ c origin, validate? c origin = some (Strict.validate c origin)) ∧
      (∀ c origin, isSentTo? c origin = some (Strict.isSentTo c origin)) ∧
      (∀ request path, pathMatch? request path = some (pathMatch request path)) ∧
      ∀ request, defaultPath? request = some (defaultPath request) :=
  ⟨validate?_eq, isSentTo?_eq, pathMatch?_eq, defaultPath?_eq⟩

end HttpSession.Cookie.ByOffset
