import RtThread.Library.LexicalPath

/-!
# Path normalisation

`dfs_normalize_path` of the device file system rewrites the joined path in place, in the memory
allocated for it.
-/

namespace RtThread.Dfs


/-- A string as C keeps it: its characters are ended by the first NUL. -/
@[ext]
structure CString where
  chars : List Char
  terminated : '\x00' ∉ chars
deriving DecidableEq

def CString.ofMemory (m : List Char) : CString where
  chars := m.takeWhile (· ≠ '\x00')
  terminated := by
    intro isNul
    have kept := List.all_eq_true.mp (List.all_takeWhile (p := (· ≠ ('\x00' : Char)))) _ isNul
    simp at kept

abbrev slashed : LexicalPath.Format Char := ⟨'/', '.', by decide⟩

/-- `while ((c = *src++) != '\0' && c != '/') *dst ++ = c;`, with the last character that
it has read.  There is no result when it leaves the allocated memory. -/
def copyName (fullpath : List Char) (src dst : Nat) : Option (List Char × Nat × Nat × Char) :=
  match _read : fullpath[src]? with
  | none => none
  | some c =>
    if c ≠ '\x00' ∧ c ≠ '/' then
      if dst < fullpath.length then copyName (fullpath.set dst c) (src + 1) (dst + 1) else none
    else some (fullpath, src + 1, dst, c)
termination_by fullpath.length - src
decreasing_by
  have inside := (List.getElem?_eq_some_iff.mp _read).1
  simp only [List.length_set]
  omega

/-- Both loops over repeated slashes leave `src` at the first other character. -/
def skipSlashes (fullpath : List Char) (src : Nat) : Option Nat :=
  match _read : fullpath[src]? with
  | none => none
  | some c => if c = '/' then skipSlashes fullpath (src + 1) else some src
termination_by fullpath.length - src
decreasing_by
  have inside := (List.getElem?_eq_some_iff.mp _read).1
  omega

/-- `while (dst0 < dst && dst[-1] != '/') dst --;` -/
def stepBack (fullpath : List Char) : Nat → Option Nat
  | 0 => some 0
  | dst + 1 =>
    match fullpath[dst]? with
    | none => none
    | some c => if c ≠ '/' then stepBack fullpath dst else some (dst + 1)

/-- What the component at `src` asks for. -/
inductive Turn where
  | copy (src : Nat)
  | skip (src : Nat)
  | upOne (src : Nat)

def readDots (fullpath : List Char) (src : Nat) : Option Turn := do
  let c ← fullpath[src]?
  if c = '.' then
    let c1 ← fullpath[src + 1]?
    if c1 = '\x00' then return .copy (src + 1)
    else if c1 = '/' then return .skip (← skipSlashes fullpath (src + 2))
    else if c1 = '.' then
      let c2 ← fullpath[src + 2]?
      if c2 = '\x00' then return .upOne (src + 2)
      else if c2 = '/' then return .upOne (← skipSlashes fullpath (src + 3))
      else return .copy src
    else return .copy src
  else return .copy src

inductive Turned where
  | again (fullpath : List Char) (src dst : Nat)
  | ended (fullpath : List Char) (dst : Nat)
  | null

def store (fullpath : List Char) (p : Nat) (c : Char) : Option (List Char) :=
  if p < fullpath.length then some (fullpath.set p c) else none

def turn (fullpath : List Char) (src dst : Nat) : Option Turned := do
  match ← readDots fullpath src with
  | .copy src =>
    let (fullpath, src, dst, c) ← copyName fullpath src dst
    if c = '/' then
      let fullpath ← store fullpath dst '/'
      return .again fullpath (← skipSlashes fullpath src) (dst + 1)
    else return .ended fullpath dst
  | .skip src => return .again fullpath src dst
  | .upOne src =>
    match dst with
    | 0 => return .null
    | dst + 1 => return .again fullpath src (← stepBack fullpath dst)

/-- The main loop: the memory and `dst` when it breaks, or that it returns `NULL`. -/
def rewrite : Nat → List Char → Nat → Nat → Option (Option (List Char × Nat))
  | 0, _, _, _ => none
  | left + 1, fullpath, src, dst =>
    match turn fullpath src dst with
    | none => none
    | some (.again fullpath src dst) => rewrite left fullpath src dst
    | some (.ended fullpath dst) => some (some (fullpath, dst))
    | some .null => some none

/-- What follows the loop.  Without a character written, `*dst` is read in front of the
string. -/
def finish (fullpath : List Char) (dst : Nat) : Option (List Char) := do
  let fullpath ← store fullpath dst '\x00'
  let fullpath ←
    match dst with
    | 0 => none
    | dst + 1 => do
        let c ← fullpath[dst]?
        if dst ≠ 0 ∧ c = '/' then store fullpath dst '\x00' else some fullpath
  let c ← fullpath[0]?
  if c = '\x00' then store (← store fullpath 0 '/') 1 '\x00' else return fullpath

def joined (workingDirectory : CString) (directory : Option CString) (filename : CString) :
    List Char :=
  if filename.chars.head? ≠ some '/' then
    (directory.getD workingDirectory).chars ++ '/' :: filename.chars
  else filename.chars

/-- The outer option is `none` when the function leaves the allocated memory, and the inner
one when it returns `NULL`. -/
def dfsNormalizePath (allocated : Bool) (workingDirectory : CString) (directory : Option CString)
    (filename : CString) : Option (Option CString) :=
  if allocated = false then some none
  else do
    let fullpath := joined workingDirectory directory filename ++ ['\x00']
    match ← rewrite (fullpath.length + 1) fullpath 0 0 with
    | none => return none
    | some (fullpath, dst) => return some (CString.ofMemory (← finish fullpath dst))

end RtThread.Dfs
