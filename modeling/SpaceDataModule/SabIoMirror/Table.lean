import SpaceDataModule.ByteFiles
import SpaceDataModule.Interleaving

/-! The small-file mirror in a shared buffer. Every load, store and exchange on the
buffer is one step of the party that makes it, down to the single bytes of paths and
data; each path has one writer, and there are any number of readers. -/
namespace SpaceDataModule.SabIoMirror
open ByteFiles Interleaving

abbrev Path := Bytes

/-- What `createSabIoMirrorBuffer` lays out, with the sizes it lets pass. -/
structure Layout where
  entries : Nat
  entryBytes : Nat
  maxPathBytes : Nat
  entries_pos : 0 < entries
  entryBytes_valid : 8 ≤ entryBytes ∧ entryBytes % 8 = 0
  maxPathBytes_valid : 8 ≤ maxPathBytes ∧ maxPathBytes % 8 = 0

def fnv1a (bytes : Bytes) : UInt32 :=
  bytes.foldl (fun hash byte => (hash ^^^ byte.toUInt32) * 0x01000193) 0x811c9dc5

/-- The slot of a probe: the hash, and one further each time. -/
def Layout.slot (layout : Layout) (key : Path) (probe : Nat) : Nat :=
  ((fnv1a key).toNat % layout.entries + probe) % layout.entries

inductive EntryState where
  | empty | claiming | live | cleared
  deriving DecidableEq

structure Entry where
  state : EntryState := .empty
  seq : UInt32 := 0
  hash : UInt32 := 0
  pathLen : Nat := 0
  covered : Nat := 0
  size : Nat := 0
  path : Nat → UInt8 := fun _ => 0
  data : Nat → UInt8 := fun _ => 0
  /-- The path whose writer claimed the entry, and the sequence steps made on it; the
  buffer holds neither. -/
  owner : Option Path := none
  steps : Nat := 0

/-- The arguments of `updateSabIoMirror`. -/
structure Write where
  offset : Nat
  bytes : Bytes
  truncateTo : Option Nat := none

inductive Change where
  | update (write : Write)
  | clear

abbrev File := Option Bytes

/-- The write as it changes the file: the bytes first, then the size. -/
def Write.content (write : Write) (content : Bytes) : Bytes :=
  match write.truncateTo with
  | none => writeAt content write.offset write.bytes
  | some size => resize (writeAt content write.offset write.bytes) size

def Change.file : Change → File → File
  | .update write, file => some (write.content (file.getD []))
  | .clear, _ => none

structure Read where
  path : Path
  length : Nat
  offset : Nat

/-- A finished read: the file as the call ended, and the bytes returned. -/
structure Answer where
  read : Read
  file : File
  result : Option Bytes

structure Shared where
  table : Nat → Entry := fun _ => {}
  files : Path → File := fun _ => none
  answers : List Answer := []

def Shared.modify (m : Shared) (index : Nat) (change : Entry → Entry) : Shared :=
  { m with table := Function.update m.table index (change (m.table index)) }

def Shared.changed (m : Shared) (path : Path) (change : Change) : Shared :=
  { m with files := Function.update m.files path (change.file (m.files path)) }

/-- `Atomics.add` on the sequence word. -/
def Entry.advance (e : Entry) : Entry := { e with seq := e.seq + 1, steps := e.steps + 1 }

section Find

/-- The next load of `find` within a probe; `bytes` counts the bytes of the path
found equal. -/
inductive FindStep where
  | state | hash | length
  | bytes (equal : Nat)

inductive Search where
  | searching (probe : Nat) (step : FindStep)
  | found (index : Nat)
  | absent

def Layout.nextProbe (layout : Layout) (probe : Nat) : Search :=
  if probe + 1 < layout.entries then .searching (probe + 1) .state else .absent

def find (layout : Layout) (table : Nat → Entry) (key : Path) (probe : Nat) : FindStep → Search
  | .state =>
    match (table (layout.slot key probe)).state with
    | .empty => .absent
    | .claiming => layout.nextProbe probe
    | .live | .cleared => .searching probe .hash
  | .hash =>
    if (table (layout.slot key probe)).hash = fnv1a key then .searching probe .length
    else layout.nextProbe probe
  | .length =>
    if (table (layout.slot key probe)).pathLen = key.length then .searching probe (.bytes 0)
    else layout.nextProbe probe
  | .bytes equal =>
    if equal < key.length then
      if (table (layout.slot key probe)).path equal = byteAt key equal then
        .searching probe (.bytes (equal + 1))
      else layout.nextProbe probe
    else .found (layout.slot key probe)

end Find

section Writer

/-- The next access of `insert`; `path` counts the bytes stored. -/
inductive InsertStep where
  | exchange
  | path (stored : Nat)
  | length | hash | covered | size | state

/-- The next access of `updateSabIoMirror` once it has an entry. -/
inductive UpdateStep where
  | loadState
  | begin (wasLive : Bool)
  | loadSize (wasLive : Bool)
  | loadCovered (wasLive : Bool) (size : Nat)
  | store (stores : List Store) (size : Nat)
  | storeSize (size : Nat)
  | storeCovered (size : Nat)
  | storeState
  | finish

inductive ClearStep where
  | begin | storeState | storeCovered | storeSize | finish

inductive Writer where
  /-- With what the last `updateSabIoMirror` returned. -/
  | resting (returned : Option Bool)
  | finding (change : Change) (probe : Nat) (step : FindStep)
  | inserting (write : Write) (probe : Nat) (step : InsertStep)
  | updating (write : Write) (index : Nat) (step : UpdateStep)
  | clearing (index : Nat) (step : ClearStep)

variable (layout : Layout)

def Write.plan (write : Write) (wasLive : Bool) (covered : Nat) : List Store :=
  (if wasLive then [] else filling 0 layout.entryBytes) ++
    (if write.bytes ≠ [] ∧ write.offset < layout.entryBytes then
      (if write.offset > covered then filling covered write.offset else []) ++
        placing write.offset (write.bytes.take
          (min layout.entryBytes (write.offset + write.bytes.length) - write.offset))
    else []) ++
    match write.truncateTo with
    | some size => if size < covered then filling size covered else []
    | none => []

def Write.size (write : Write) (size : Nat) : Nat :=
  write.truncateTo.getD
    (if write.bytes ≠ [] then max size (write.offset + write.bytes.length) else size)

def Change.found (index : Nat) : Change → Writer
  | .update write => .updating write index .loadState
  | .clear => .clearing index .begin

variable (key : Path) (m : Shared)

def insert (write : Write) (probe : Nat) :
    InsertStep → Shared × Writer
  | .exchange =>
    if (m.table (layout.slot key probe)).state = .empty then
      (m.modify (layout.slot key probe) fun e => { e with state := .claiming, owner := some key },
        .inserting write probe (.path 0))
    else if probe + 1 < layout.entries then (m, .inserting write (probe + 1) .exchange)
    else (m.changed key (.update write), .resting (some false))
  | .path stored =>
    if stored < key.length then
      (m.modify (layout.slot key probe) fun e =>
        { e with path := Function.update e.path stored (byteAt key stored) },
        .inserting write probe (.path (stored + 1)))
    else (m, .inserting write probe .length)
  | .length =>
    (m.modify (layout.slot key probe) fun e => { e with pathLen := key.length },
      .inserting write probe .hash)
  | .hash =>
    (m.modify (layout.slot key probe) fun e => { e with hash := fnv1a key },
      .inserting write probe .covered)
  | .covered =>
    (m.modify (layout.slot key probe) fun e => { e with covered := 0 },
      .inserting write probe .size)
  | .size =>
    (m.modify (layout.slot key probe) fun e => { e with size := 0 },
      .inserting write probe .state)
  | .state =>
    (m.modify (layout.slot key probe) fun e => { e with state := .cleared },
      .updating write (layout.slot key probe) .loadState)

def update (write : Write) (index : Nat) :
    UpdateStep → Shared × Writer
  | .loadState =>
    (m, .updating write index (.begin ((m.table index).state = .live)))
  | .begin wasLive =>
    (m.modify index Entry.advance, .updating write index (.loadSize wasLive))
  | .loadSize wasLive =>
    (m, .updating write index
      (.loadCovered wasLive (if wasLive then (m.table index).size else 0)))
  | .loadCovered wasLive size =>
    (m, .updating write index (.store
      (write.plan layout wasLive (if wasLive then (m.table index).covered else 0))
      (write.size size)))
  | .store ((address, byte) :: stores) size =>
    (m.modify index fun e => { e with data := Function.update e.data address byte },
      .updating write index (.store stores size))
  | .store [] size => (m, .updating write index (.storeSize size))
  | .storeSize size =>
    (m.modify index fun e => { e with size := size }, .updating write index (.storeCovered size))
  | .storeCovered size =>
    (m.modify index fun e => { e with covered := min size layout.entryBytes },
      .updating write index .storeState)
  | .storeState =>
    (m.modify index fun e => { e with state := .live }, .updating write index .finish)
  | .finish =>
    ((m.modify index Entry.advance).changed key (.update write), .resting (some true))

def clear (index : Nat) : ClearStep → Shared × Writer
  | .begin => (m.modify index Entry.advance, .clearing index .storeState)
  | .storeState =>
    (m.modify index fun e => { e with state := .cleared }, .clearing index .storeCovered)
  | .storeCovered =>
    (m.modify index fun e => { e with covered := 0 }, .clearing index .storeSize)
  | .storeSize => (m.modify index fun e => { e with size := 0 }, .clearing index .finish)
  | .finish => ((m.modify index Entry.advance).changed key .clear, .resting none)

/-- A path longer than the buffer allows is not mirrored. -/
def Change.enter (change : Change) : Shared × Writer :=
  if key.length > layout.maxPathBytes then
    (m.changed key change, .resting (match change with | .update _ => some false | .clear => none))
  else (m, .finding change 0 .state)

/-- The step after a search: an update without an entry inserts one. -/
def Change.searched (change : Change) : Search → Shared × Writer
  | .searching probe step => (m, .finding change probe step)
  | .found index => (m, change.found index)
  | .absent =>
    match change with
    | .update write => (m, .inserting write 0 .exchange)
    | .clear => (m.changed key .clear, .resting none)

def Writer.step : Writer → Option (Shared × Writer)
  | .resting _ => none
  | .finding change probe step => some (change.searched key m (find layout m.table key probe step))
  | .inserting write probe step => some (insert layout key m write probe step)
  | .updating write index step => some (update layout key m write index step)
  | .clearing index step => some (clear key m index step)

end Writer

section Reader

def maxReadAttempts : Nat := 64

/-- The next access of `readSabIoMirrorEntry`. -/
inductive ReadStep where
  | loadSeq
  | loadState (before : UInt32)
  | loadSize (before : UInt32)
  | loadCovered (before : UInt32) (size : Nat)
  | copy (before : UInt32) (want : Nat) (copied : Bytes)
  | verify (before : UInt32) (result : Option Bytes)

inductive Reader where
  | resting
  | finding (read : Read) (probe : Nat) (step : FindStep)
  | reading (read : Read) (index attempt : Nat) (step : ReadStep)

def Shared.answered (m : Shared) (read : Read) (result : Option Bytes) : Shared × Reader :=
  ({ m with answers := m.answers ++ [⟨read, m.files read.path, result⟩] }, .resting)

def Shared.retry (m : Shared) (read : Read) (index attempt : Nat) : Shared × Reader :=
  if attempt + 1 < maxReadAttempts then (m, .reading read index (attempt + 1) .loadSeq)
  else m.answered read none

def readEntry (m : Shared) (read : Read) (index attempt : Nat) : ReadStep → Shared × Reader
  | .loadSeq =>
    if (m.table index).seq &&& 1 = 1 then m.retry read index attempt
    else (m, .reading read index attempt (.loadState (m.table index).seq))
  | .loadState before =>
    if (m.table index).state = .live then (m, .reading read index attempt (.loadSize before))
    else m.answered read none
  | .loadSize before =>
    (m, .reading read index attempt (.loadCovered before (m.table index).size))
  | .loadCovered before size =>
    let want := min read.length (size - read.offset)
    (m, .reading read index attempt
      (if read.offset ≥ size then .verify before (some [])
      else if read.offset + want > (m.table index).covered then .verify before none
      else .copy before want []))
  | .copy before want copied =>
    if copied.length < want then
      (m, .reading read index attempt
        (.copy before want (copied ++ [(m.table index).data (read.offset + copied.length)])))
    else (m, .reading read index attempt (.verify before (some copied)))
  | .verify before result =>
    if (m.table index).seq = before then m.answered read result else m.retry read index attempt

def Read.enter (layout : Layout) (m : Shared) (read : Read) : Shared × Reader :=
  if read.path.length > layout.maxPathBytes then m.answered read none
  else (m, .finding read 0 .state)

def Read.searched (m : Shared) (read : Read) : Search → Shared × Reader
  | .searching probe step => (m, .finding read probe step)
  | .found index => (m, .reading read index 0 .loadSeq)
  | .absent => m.answered read none

def Reader.step (layout : Layout) (m : Shared) : Reader → Option (Shared × Reader)
  | .resting => none
  | .finding read probe step => some (read.searched m (find layout m.table read.path probe step))
  | .reading read index attempt step => some (readEntry m read index attempt step)

end Reader

section System

inductive Party where
  | writer (path : Path)
  | reader (id : Nat)
  deriving DecidableEq

inductive Position where
  | writer (writer : Writer)
  | reader (reader : Reader)

inductive Move where
  | change (change : Change)
  | read (read : Read)
  | step

def act (layout : Layout) (party : Party) (move : Move) (m : Shared) (position : Position) :
    Option (Shared × Position) :=
  match party, move, position with
  | .writer key, .change change, .writer (.resting _) =>
    some ((change.enter layout key m).map id .writer)
  | .writer key, .step, .writer writer => (writer.step layout key m).map (Prod.map id .writer)
  | .reader _, .read read, .reader .resting => some ((read.enter layout m).map id .reader)
  | .reader _, .step, .reader reader => (reader.step layout m).map (Prod.map id .reader)
  | _, _, _ => none

def happen (event : Empty) (_ : Shared) : Option Shared := event.elim

def Party.start : Party → Position
  | .writer _ => .writer (.resting none)
  | .reader _ => .reader .resting

def initial : Config Shared Party Position := ⟨{}, Party.start⟩

end System

end SpaceDataModule.SabIoMirror
