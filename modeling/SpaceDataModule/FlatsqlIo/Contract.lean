import SpaceDataModule.JavaScript
import SpaceDataModule.PosixPaths

/-! The `flatsql_io` contract every host shares: flag words, statuses, and the way
a guest path becomes components below a host root. -/
namespace SpaceDataModule.FlatsqlIo

/-- The flag word of `open`, after `flags | 0`. -/
abbrev Flags := BitVec 32

namespace Flags

def read : Flags := 0x0001
def write : Flags := 0x0002
def create : Flags := 0x0004
def excl : Flags := 0x0008
def trunc : Flags := 0x0010
def deleteOnClose : Flags := 0x0020
def probe : Flags := 0x0040
def unlink : Flags := 0x0080
def createParents : Flags := 0x0100
def unlinkIfUnused : Flags := 0x0200
def openDeferred : Flags := 0x0400

/-- `flags & mask` as a condition. -/
def has (flags mask : Flags) : Bool := flags &&& mask != 0

end Flags

namespace Status

def ok : Int := 0
def generic : Int := -1
def noent : Int := -2
def access : Int := -3
def io : Int := -4
def badHandle : Int := -6
def busy : Int := -7

end Status

/-- `FLATSQL_IO_MAX_PATH_BYTES`. -/
def maxPathBytes : Nat := 4096

/-- `flatsqlIoStatusForError` on the system errors a path call raises. -/
def statusForError : Posix.Errno → Int
  | .noEntry | .notDirectory => Status.noent
  | .access => Status.access
  | .exist => Status.generic
  | .loop | .isDirectory => Status.io

/-- The loop of `splitFlatsqlIoPath`. -/
def collectComponents : List String → Except Int (List String)
  | [] => .ok []
  | part :: parts =>
    if part = "" ∨ part = "." then collectComponents parts
    else if part = ".." then .error Status.access
    else (collectComponents parts).map (part :: ·)

def splitFlatsqlIoPath (path : String) : Except Int (List String) :=
  if path = "" then .error Status.generic
  else if path.toList.contains '\x00' then .error Status.generic
  else
    match collectComponents (JavaScript.split '/' path) with
    | .error status => .error status
    | .ok components => if components = [] then .error Status.generic else .ok components

/-- `decodeFlatsqlIoPath`: invalid UTF-8 is refused. -/
def decodeFlatsqlIoPath (bytes : ByteArray) : Except Int String :=
  if bytes.size = 0 ∨ maxPathBytes < bytes.size then .error Status.generic
  else
    match String.fromUTF8? bytes with
    | none => .error Status.generic
    | some text => .ok (JavaScript.stripByteOrderMark text)

theorem mem_collectComponents (collected : collectComponents parts = .ok components) :
    ∀ component ∈ components, component ∈ parts ∧ Posix.Proper component := by
  induction parts generalizing components with
  | nil =>
    cases collected
    simp
  | cons part parts ih =>
    rw [collectComponents] at collected
    split_ifs at collected with skipped dots
    · intro component member
      exact (ih collected component member).imp_left (List.mem_cons_of_mem _)
    · rw [not_or] at skipped
      cases rest : collectComponents parts with
      | error status => simp [rest, Except.map] at collected
      | ok others =>
        obtain rfl : part :: others = components := by simpa [rest, Except.map] using collected
        intro component member
        rcases List.mem_cons.mp member with rfl | later
        · exact ⟨List.mem_cons_self, skipped.1, skipped.2, dots⟩
        · exact (ih rest component later).imp_left (List.mem_cons_of_mem _)

/-- The components of an accepted path: at least one, each the name of an entry. -/
theorem splitFlatsqlIoPath_proper (accepted : splitFlatsqlIoPath path = .ok components) :
    components ≠ [] ∧ ∀ component ∈ components,
      Posix.Proper component ∧ '/' ∉ component.toList := by
  unfold splitFlatsqlIoPath at accepted
  split_ifs at accepted
  cases collected : collectComponents (JavaScript.split '/' path) with
  | error status => simp [collected] at accepted
  | ok others =>
    by_cases empty : others = []
    · simp [collected, empty] at accepted
    · obtain rfl : others = components := by simpa [collected, empty] using accepted
      refine ⟨empty, fun component member => ?_⟩
      obtain ⟨part, proper⟩ := mem_collectComponents collected component member
      exact ⟨proper, JavaScript.separator_notMem_split part⟩

end SpaceDataModule.FlatsqlIo
