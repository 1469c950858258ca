import HttpSession.Url.Basic

/-!
# Paths

The path states of the parser of the URL Standard. A path is a list of directories and a last name. One
dot, however it is encoded, stays in its directory, two dots leave it; nothing leaves the root or a drive
such as `C:`.

Files have drives of their own: the first name at the root may be one, and a path whose last name is a
drive goes on inside it.
-/

namespace HttpSession.Url

/-- The directories of a path, the innermost first. -/
abbrev Directories := List Text

/-- One or two dots, each written as such or encoded. -/
def dots (segment : Text) : Option Nat :=
  let rec count : Text → Option Nat
    | [] => some 0
    | '.' :: rest | '%' :: '2' :: 'e' :: rest | '%' :: '2' :: 'E' :: rest =>
      (count rest).map (· + 1)
    | _ => none
  match count segment with
  | some 1 => some 1
  | some 2 => some 2
  | _ => none

/-! ## Slashes and drives -/

def isSlash (special : Bool) (c : Char) : Bool := c = '/' || (special && c = '\\')

def endsAuthority (special : Bool) (c : Char) : Bool := isSlash special c || c = '?' || c = '#'

/-- A letter and a colon or bar. -/
def isDrive (segment : Text) : Bool :=
  match segment with
  | [letter, mark] => letter.isAlpha && (mark = ':' || mark = '|')
  | _ => false

def beginsWithDrive (t : Text) : Bool :=
  isDrive (t.take 2) && (t.drop 2).head?.all (endsAuthority true)

def isReadDrive (segment : Text) : Bool := isDrive segment && segment.getLast? = some ':'

def driveName (segment : Text) : Text := segment.take 1 ++ ":"

/-! ## Segments -/

/-- Tabs and line breaks, which do not count in a URL. -/
def isBreak (c : Char) : Bool := c = '\t' || c = '\n' || c = '\r'

def withoutBreaks (t : Text) : Text := t.filter fun c => ¬ isBreak c

def behind : Nat → Text → Text
  | 0, t => t
  | _ + 1, [] => []
  | n + 1, c :: rest => if isBreak c then behind (n + 1) rest else behind n rest

structure Segment where
  text : Text
  /-- Whether a break cuts the first two characters off from others. -/
  isCut : Bool := false
  deriving DecidableEq, Repr

def Segment.read (t : Text) : Segment :=
  let rest := behind 2 t
  ⟨percentEncode inPath (withoutBreaks t), rest.head?.any isBreak && withoutBreaks rest ≠ []⟩

def segments (special : Bool) (t : Text) : List Segment :=
  let t : Text := if special then t.map fun c => if c = '\\' then '/' else c else t
  (t.pieces '/').map Segment.read

/-! ## Walks -/

/-- The directories behind two dots. A directory that begins with a drive is not left, even where the
backslash behind the drive is no slash. -/
def leave : Directories → Directories
  | [] => []
  | inner :: outer => if beginsWithDrive inner then inner :: outer else outer

inductive Move
  | stay
  | leave
  /-- To a drive, which stands for the host of a file. -/
  | drive (name : Text)
  | name (directories : Directories) (name : Text)

/-- Where a segment leads from some directories. At the root of a file a drive is written with a colon;
one that is cut off from what follows is a directory, and what follows a name even if it is dots. -/
def move (file : Bool) (directories : Directories) (segment : Segment) : Move :=
  let first := segment.text.take 2
  if file ∧ directories = [] ∧ segment.isCut ∧ isReadDrive first then
    .name [first] (segment.text.drop 2)
  else
    match dots segment.text with
    | some 2 => .leave
    | some _ => .stay
    | none =>
      if file ∧ directories = [] ∧ isDrive segment.text then .drive (driveName segment.text)
      else .name directories segment.text

structure Walk where
  directories : Directories
  last : Text
  /-- Whether a drive was met at the root. -/
  onDrive : Bool

def walk (file : Bool) (directories : Directories) (onDrive : Bool) : List Segment → Walk
  | [] => ⟨directories, [], onDrive⟩
  | segment :: rest =>
    match move file directories segment with
    | .stay => walk file directories onDrive rest
    | .leave => walk file (leave directories) onDrive rest
    | .drive name =>
      if rest = [] then ⟨directories, name, true⟩ else walk file (name :: directories) true rest
    | .name inside name =>
      if rest = [] then ⟨inside, name, onDrive⟩ else walk file (name :: inside) onDrive rest

def Walk.path (file : Bool) (w : Walk) : Text :=
  let path := w.directories.reverse.flatMap (· ++ ['/']) ++ w.last
  "/" ++ if file then path.dropWhile (· = '/') else path

/-! ## Walks from a path -/

def directoriesOf (path : Text) : Directories :=
  match path.pieces '/' with
  | [] | [_] => []
  | _ :: inner => inner.dropLast.reverse

def lastDrive? (path : Text) : Option Text :=
  (path.pieces '/').getLast?.bind fun name => if isReadDrive name then some name else none

/-- Segments that go on from a name: the first of them is a part of it, unless it is dots. -/
def goOn (name : Text) : List Segment → List Segment
  | [] => [⟨name, false⟩]
  | segment :: rest =>
    match dots segment.text with
    | some 2 => ⟨name, false⟩ :: rest
    | some _ => ⟨name, false⟩ :: (if rest = [] then [⟨[], false⟩] else rest)
    | none => ⟨name ++ segment.text, false⟩ :: rest

/-- Walks on from a path without its last name. A file that is a drive is not left: at the root the walk
goes on inside it, elsewhere from its name. -/
def walkFrom (file : Bool) (path : Text) (along : List Segment) : Walk :=
  let directories := directoriesOf path
  match lastDrive? path with
  | some drive =>
    if ¬ file then walk file directories false along
    else if directories = [] then walk file [drive] false along
    else walk file directories false (goOn drive along)
  | none => walk file directories false along

end HttpSession.Url
