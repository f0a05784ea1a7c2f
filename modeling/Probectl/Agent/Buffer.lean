import Probectl.Lib.Framing
import Probectl.Lib.Strings

/-! The agent's disk-backed store-and-forward queue, `internal/agent/buffer.go`.
A file is its byte content; every file operation can be told to fail and where,
so the error paths are part of the model and not only the successful ones. -/
namespace Probectl.Agent

open UInt8

/-- 8 MiB, the length prefix `readFrame` honours. -/
def maxFrameLen : Nat := 8 * 2 ^ 20
def frameOverhead : Nat := 4
def defaultMaxBytes : Int := 256 * 2 ^ 20

inductive BufferError where
  | full | dir | read | openLog | writeHeader | writePayload | sync
  | rewrite | close | rename | quarantineOpen | quarantineSync
  deriving DecidableEq, Repr

inductive WriteFault where
  | header (k : Nat) | payload (k : Nat)
  deriving DecidableEq, Repr

inductive AppendFault where
  | openFile | write (w : WriteFault) | sync
  deriving DecidableEq, Repr

inductive RewriteFault where
  | openFile | write (i : Nat) (w : WriteFault) | sync | close | rename
  deriving DecidableEq, Repr

/-- The file operations of one call that fail; `{}` is a call where none does. -/
structure Faults where
  mkdir : Bool := false
  read : Bool := false
  append : Option AppendFault := none
  rewrite : Option RewriteFault := none

structure Disk where
  log : Option Bytes
  tmp : Option Bytes
  quarantine : Option Bytes
  deriving DecidableEq, Repr

def Disk.empty : Disk := ⟨none, none, none⟩

/-- The `int64` byte total is a natural number here: it never exceeds the
length of a file, which the operating system already bounds by an `int64`. -/
structure Buffer where
  maxRecords : Int
  maxBytes : Int
  fsync : Bool
  count : Nat
  bytes : Nat
  dropped : Nat
  quarantined : Nat
  deriving DecidableEq, Repr

structure Store where
  disk : Disk
  buf : Buffer
  deriving DecidableEq, Repr

/-- `binary.BigEndian.PutUint32(hdr[:], uint32(n))`: the conversion truncates. -/
def putUint32 (n : Nat) : Bytes :=
  [ofNat (n / 2 ^ 24), ofNat (n / 2 ^ 16), ofNat (n / 2 ^ 8), ofNat n]

def uint32 : Bytes → Nat
  | [a, b, c, d] => a.toNat * 2 ^ 24 + b.toNat * 2 ^ 16 + c.toNat * 2 ^ 8 + d.toNat
  | _ => 0

def writeFrame (file payload : Bytes) : Option WriteFault → Bytes × Option BufferError
  | some (.header k) => (file ++ (putUint32 payload.length).take k, some .writeHeader)
  | some (.payload k) =>
    (file ++ putUint32 payload.length ++ payload.take k, some .writePayload)
  | none => (file ++ putUint32 payload.length ++ payload, none)

inductive ReadError where
  | eof | unexpectedEOF | frameTooLarge
  deriving DecidableEq, Repr

/-- `io.ReadFull`: all `n` bytes or an error; asking for nothing always succeeds. -/
def readFull (r : Bytes) (n : Nat) : Except ReadError (Bytes × Bytes) :=
  if n ≤ r.length then .ok (r.take n, r.drop n)
  else if r = [] then .error .eof
  else .error .unexpectedEOF

def readFrame (r : Bytes) : Except ReadError (Bytes × Bytes) :=
  match readFull r 4 with
  | .error e => .error e
  | .ok (hdr, r) =>
    let n := uint32 hdr
    if n > maxFrameLen then .error .frameTooLarge else readFull r n

def readLoop : Nat → Bytes → List Bytes → List Bytes
  | 0, _, frames => frames
  | fuel + 1, r, frames =>
    match readFrame r with
    | .error _ => frames
    | .ok (fr, rest) => readLoop fuel rest (frames ++ [fr])

def frames : Option Bytes → List Bytes
  | none => []
  | some f => readLoop f.length f []

def readAll (s : Disk) (faults : Faults) : Except BufferError (List Bytes) :=
  if faults.read then .error .read else .ok (frames s.log)

def writeFrames (file : Bytes) : List Bytes → Option (Nat × WriteFault) → Bytes × Option BufferError
  | [], _ => (file, none)
  | p :: _, some (0, w) => writeFrame file p (some w)
  | p :: ps, some (i + 1, w) => writeFrames (writeFrame file p none).1 ps (some (i, w))
  | p :: ps, none => writeFrames (writeFrame file p none).1 ps none

def frameSize (p : Bytes) : Nat := frameOverhead + p.length

def encodedSize (ps : List Bytes) : Nat := (ps.map frameSize).sum

/-- Atomic replace: everything goes to the temporary file, then one rename. -/
def rewriteLocked (s : Store) (ps : List Bytes) (fault : Option RewriteFault) :
    Store × Option BufferError :=
  if fault = some .openFile then (s, some .rewrite)
  else
    let stop := match fault with
      | some (.write i w) => some (i, w)
      | _ => none
    let (file, err) := writeFrames [] ps stop
    let written := { s with disk := { s.disk with tmp := some file } }
    match err with
    | some e => (written, some e)
    | none =>
      if s.buf.fsync ∧ fault = some .sync then (written, some .sync)
      else if fault = some .close then (written, some .close)
      else if fault = some .rename then (written, some .rename)
      else
        ({ disk := { s.disk with log := some file, tmp := none }
           buf := { s.buf with count := ps.length, bytes := encodedSize ps } }, none)

/-- Open with `O_CREATE|O_APPEND`, write one frame, sync: `Enqueue` and
`appendQuarantineLocked` differ only in the file and in two error texts. -/
def appendFrame (openErr syncErr : BufferError) (fsync : Bool) (file : Option Bytes)
    (payload : Bytes) (fault : Option AppendFault) : Option Bytes × Option BufferError :=
  if fault = some .openFile then (file, some openErr)
  else
    let stop := match fault with
      | some (.write w) => some w
      | _ => none
    let (f, err) := writeFrame (file.getD []) payload stop
    match err with
    | some e => (some f, some e)
    | none => if fsync ∧ fault = some .sync then (some f, some syncErr) else (some f, none)

def openBufferWithBytes (d : Disk) (maxRecords maxBytes : Int) (faults : Faults) :
    Disk × Except BufferError Store :=
  let maxRecords := if maxRecords ≤ 0 then 10000 else maxRecords
  let maxBytes := if maxBytes = 0 then defaultMaxBytes else if maxBytes < 0 then 0 else maxBytes
  if faults.mkdir then (d, .error .dir)
  else
    let b : Buffer := ⟨maxRecords, maxBytes, true, 0, 0, 0, 0⟩
    match readAll d faults with
    | .error e => (d, .error e)
    | .ok ps =>
      match rewriteLocked ⟨d, b⟩ ps faults.rewrite with
      | (s, some e) => (s.disk, .error e)
      | (s, none) => (s.disk, .ok s)

def atCapacity (b : Buffer) (payload : Bytes) : Bool :=
  decide (b.maxRecords ≤ b.count) ||
    (decide (0 < b.maxBytes) && decide (b.maxBytes < (b.bytes : Int) + frameSize payload))

def enqueue (s : Store) (payload : Bytes) (faults : Faults) : Store × Option BufferError :=
  if atCapacity s.buf payload then
    ({ s with buf := { s.buf with dropped := s.buf.dropped + 1 } }, some .full)
  else
    match appendFrame .openLog .sync s.buf.fsync s.disk.log payload faults.append with
    | (log, some e) => ({ s with disk := { s.disk with log := log } }, some e)
    | (log, none) =>
      ({ disk := { s.disk with log := log }
         buf := { s.buf with count := s.buf.count + 1, bytes := s.buf.bytes + frameSize payload } },
        none)

/-- The send phase of `Drain`: `stop i` is the context or send error met at frame `i`. -/
def sendLoop (stop : Nat → Option String) : List Bytes → Nat → Nat × Option String
  | [], sent => (sent, none)
  | _ :: ps, sent =>
    match stop sent with
    | some e => (sent, some e)
    | none => sendLoop stop ps (sent + 1)

def enqueueAll (s : Store) : List Bytes → Store × List (Option BufferError)
  | [] => (s, [])
  | p :: ps =>
    let (t, e) := enqueue s p {}
    let (u, es) := enqueueAll t ps
    (u, e :: es)

inductive DrainError where
  | buffer (e : BufferError) | send (e : String)
  deriving DecidableEq, Repr

structure DrainResult where
  store : Store
  sent : Nat
  err : Option DrainError
  enqueued : List (Option BufferError)

/-- `Drain`: the lock is released while sending, and `during` is what other
goroutines enqueue meanwhile. -/
def drain (s : Store) (stop : Nat → Option String) (during : List Bytes)
    (first second : Faults) : DrainResult :=
  match readAll s.disk first with
  | .error e => ⟨s, 0, some (.buffer e), []⟩
  | .ok ps =>
    let (sent, sendErr) := sendLoop stop ps 0
    let (t, enqueued) := enqueueAll s during
    match readAll t.disk second with
    | .error e => ⟨t, sent, some (.buffer e), enqueued⟩
    | .ok cur =>
      let sent := if sent > cur.length then cur.length else sent
      match rewriteLocked t (cur.drop sent) second.rewrite with
      | (u, some e) => ⟨u, sent, some (.buffer e), enqueued⟩
      | (u, none) => ⟨u, sent, sendErr.map .send, enqueued⟩

def peekLoop (maxRecords maxBytes : Int) : Nat → Bytes → List Bytes → Int → List Bytes
  | 0, _, ps, _ => ps
  | fuel + 1, r, ps, total =>
    if maxRecords ≤ 0 ∨ (ps.length : Int) < maxRecords then
      match readFrame r with
      | .error _ => ps
      | .ok (fr, rest) =>
        if 0 < maxBytes ∧ 0 < ps.length ∧ maxBytes < total + frameSize fr then ps
        else peekLoop maxRecords maxBytes fuel rest (ps ++ [fr]) (total + frameSize fr)
    else ps

def peekBatch (s : Store) (maxRecords maxBytes : Int) (faults : Faults) :
    Except BufferError (List Bytes) :=
  if maxRecords ≤ 0 ∧ maxBytes ≤ 0 then readAll s.disk faults
  else
    match s.disk.log with
    | none => .ok []
    | some f =>
      if faults.read then .error .read else .ok (peekLoop maxRecords maxBytes (f.length + 1) f [] 0)

inductive Outcome where
  | returned (err : Option BufferError) | panicked
  deriving DecidableEq, Repr

/-- `Remove`: a negative count is a slice index out of range. -/
def remove (s : Store) (n : Int) (faults : Faults) : Store × Outcome :=
  match readAll s.disk faults with
  | .error e => (s, .returned (some e))
  | .ok cur =>
    let n := if n > cur.length then (cur.length : Int) else n
    if n < 0 then (s, .panicked)
    else
      match rewriteLocked s (cur.drop n.toNat) faults.rewrite with
      | (t, e) => (t, .returned e)

def quarantineHead (s : Store) (faults : Faults) : Store × Except BufferError Nat :=
  match readAll s.disk faults with
  | .error e => (s, .error e)
  | .ok [] => (s, .ok 0)
  | .ok (head :: rest) =>
    match appendFrame .quarantineOpen .quarantineSync s.buf.fsync s.disk.quarantine head
        faults.append with
    | (q, some e) => ({ s with disk := { s.disk with quarantine := q } }, .error e)
    | (q, none) =>
      match rewriteLocked { s with disk := { s.disk with quarantine := q } } rest
          faults.rewrite with
      | (t, some e) => (t, .error e)
      | (t, none) =>
        ({ t with buf := { t.buf with quarantined := t.buf.quarantined + 1 } }, .ok head.length)

end Probectl.Agent
