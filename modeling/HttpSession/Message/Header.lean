import HttpSession.Bytes.Utf8

/-!
# Headers

Headers are a list of lower case names with their values, in the order in which they were added. Names are
tokens and values are bytes after RFC 7230, those beyond ASCII among them; a value is text where all of
its bytes are printable ASCII or tabs. The order of values is kept within a name; that of different names
counts for nothing.

Main statements say how each operation changes the values of a name: `values_add`, `values_remove`,
`values_replace`.
-/

namespace HttpSession

def isTokenChar (c : Char) : Bool :=
  c.isAlphanum || "!#$%&'*+-.^_\x60|~".toList.contains c

namespace HeaderName

def read? (t : Text) : Option Text :=
  if t ≠ [] ∧ t.length ≤ 65535 ∧ t.all isTokenChar then some t.lower else none

def authorization : Text := "authorization"
def proxyAuthorization : Text := "proxy-authorization"
def cookie : Text := "cookie"
def cookie2 : Text := "cookie2"
def location : Text := "location"
def proxyAuthenticate : Text := "proxy-authenticate"
def setCookie : Text := "set-cookie"
def setCookie2 : Text := "set-cookie2"
def wwwAuthenticate : Text := "www-authenticate"

def complaint : Text := "invalid HTTP header name"

end HeaderName

namespace HeaderValue

/-- The bytes that a value can hold: no controls but the tab. -/
def admits (b : UInt8) : Bool := (32 ≤ b && b ≠ 127) || b = 9

def isValue (bytes : Bytes) : Bool := bytes.all admits

def ofText? (t : Text) : Option Bytes :=
  let bytes := Utf8.encode t
  if isValue bytes then some bytes else none

/-- The text of a value whose bytes are all printable ASCII or tabs. -/
def text? (value : Bytes) : Option Text :=
  if value.all fun b => (32 ≤ b && b < 127) || b = 9 then
    some (value.map fun b => Char.ofNat b.toNat)
  else none

def complaint : Text := "failed to parse header value"

end HeaderValue

/-- Names and values, in the order in which they were added. -/
abbrev Headers := List (Text × Bytes)

namespace Headers

def values (h : Headers) (name : Text) : List Bytes :=
  h.filterMap fun (n, value) => if n = name then some value else none

def first? (h : Headers) (name : Text) : Option Bytes := (h.values name).head?

/-- The first value of a name, if it is text. -/
def text? (h : Headers) (name : Text) : Option Text := (h.first? name).bind HeaderValue.text?

def has (h : Headers) (name : Text) : Bool := (h.values name) ≠ []

def add (h : Headers) (name : Text) (value : Bytes) : Headers := h ++ [(name, value)]

def remove (h : Headers) (name : Text) : Headers := h.filter fun (n, _) => n ≠ name

def replace (h : Headers) (name : Text) (value : Bytes) : Headers := (h.remove name).add name value

@[simp] theorem values_add (h : Headers) (name other : Text) (value : Bytes) :
    (h.add name value).values other = h.values other ++ if name = other then [value] else [] := by
  by_cases hn : name = other <;> simp [values, add, hn]

@[simp] theorem values_remove (h : Headers) (name other : Text) :
    (h.remove name).values other = if name = other then [] else h.values other := by
  induction h with
  | nil => simp [values, remove]
  | cons entry rest ih =>
    obtain ⟨n, value⟩ := entry
    simp only [values, remove] at ih ⊢
    by_cases hn : n = name
    · subst hn
      by_cases ho : n = other <;> simp_all
    · by_cases ho : n = other
      · subst ho
        simp_all [Ne.symm hn]
      · simp_all

theorem remove_add (h : Headers) (name other : Text) (value : Bytes) :
    (h.add name value).remove other = h.remove other ++ if name = other then [] else [(name, value)] := by
  by_cases hn : name = other <;> simp [remove, add, hn]

/-- Removing a name that is not there changes nothing. -/
theorem remove_of_values_eq_nil {h : Headers} {name : Text} (hn : h.values name = []) :
    h.remove name = h := by
  refine List.filter_eq_self.mpr fun (n, value) hm => decide_eq_true fun heq => ?_
  have hv : value ∈ h.values name := List.mem_filterMap.mpr ⟨(n, value), hm, if_pos heq⟩
  rw [hn] at hv
  cases hv

/-- Removing a name undoes setting it where it was not there before. -/
theorem remove_replace {h : Headers} {name : Text} (value : Bytes) (hn : h.values name = []) :
    (h.replace name value).remove name = h := by
  rw [replace, remove_of_values_eq_nil hn, remove_add, if_pos rfl, List.append_nil,
    remove_of_values_eq_nil hn]

@[simp] theorem values_replace (h : Headers) (name other : Text) (value : Bytes) :
    (h.replace name value).values other = if name = other then [value] else h.values other := by
  by_cases hn : name = other <;> simp [replace, hn]

end Headers

end HttpSession
