import Probectl.Audit.Retention
import Probectl.Lib.Padded

/-! The WORM export of the provider stream: `worm.go` over an object store. The
exporter has no encrypted attribution companions configured. -/
namespace Probectl.Audit

open Strings Text

/-! The object store. -/

structure Object where
  data : Bytes
  contentType : Bytes
  deriving DecidableEq

abbrev Store := List (Bytes × Object)

structure Put where
  key : Bytes
  object : Object
  deriving DecidableEq

inductive StoreError where
  | notFound
  | tooLarge
  deriving DecidableEq

def Store.get (store : Store) (key : Bytes) : Option Object := store.lookup key

def Store.put (store : Store) (p : Put) : Store :=
  if (store.get p.key).isSome then store.map fun entry => if entry.1 = p.key then (p.key, p.object) else entry
  else store ++ [(p.key, p.object)]

def Store.putAll (store : Store) (puts : List Put) : Store := puts.foldl Store.put store

def Store.getLimited (store : Store) (key : Bytes) (maxBytes : Nat) : Except StoreError Object :=
  match store.get key with
  | none => .error .notFound
  | some object => if maxBytes < object.data.length then .error .tooLarge else .ok object

def Store.listLimited (store : Store) (path : Bytes) (maxKeys : Nat) : Option (List Bytes) :=
  let keys := (store.map Prod.fst).filter fun key => path.isPrefixOf key
  if maxKeys < keys.length then none else some (sort keys)

/-! Segments. -/

def wormPrefix : Bytes := lit "worm/audit/provider/"
def wormRedactedValue : Bytes := lit "[worm-redacted]"
def maxWORMPublicKeyBytes : Nat := 4 * 2 ^ 10
def maxWORMSegmentBytes : Nat := 4 * 2 ^ 20
def maxWORMSignatureBytes : Nat := 64
def maxWORMSegmentArtifacts : Nat := 200000
def defaultExportPageSize : Nat := 100
def maxExportPageSize : Nat := 1000

structure WormEvent where
  seq : Int
  actor : Bytes
  action : Bytes
  target : Bytes
  projected : Bytes
  prevHash : Bytes
  hash : Bytes
  createdAtMicros : Int
  deriving DecidableEq

def minimizeEventForWORM {Data : Type} (ev : Event Data) : WormEvent :=
  { seq := ev.seq, actor := wormRedactedValue, action := ev.action,
    target := if ev.target ≠ [] then wormRedactedValue else ev.target, projected := ev.hash, prevHash := ev.prevHash,
    hash := ev.hash, createdAtMicros := ev.createdAtMicros }

structure WormSegment where
  formatVersion : Nat
  stream : Bytes
  fromSeq : Int
  toSeq : Int
  exportedAt : Int
  events : List WormEvent
  deriving DecidableEq

inductive WormFault where
  | source (cause : Fault)
  | negativeCursor
  | cursorBehind (cursor prunedSeq : Int)
  | cursorAbove (cursor headSeq : Int)
  | decodeEvent (seq : Int)
  | noRow (headSeq cursor : Int)
  | gap (cursor next : Int)
  | pageTooLong (length : Nat)
  | sourceSequence (index : Nat) (want got : Int)
  | sourcePrevHash (seq : Int)
  | sourceHash (seq : Int)
  | publicKeyDiffers
  | publicKeyUnreadable (cause : StoreError)
  | marshal (text : Bytes)
  | segmentTooLarge
  | tooManyArtifacts
  | invalidArtifact (key : Bytes)
  | duplicateSignature (key : Bytes)
  | duplicateSegment (key : Bytes)
  | orphanSignature (key : Bytes)
  | signatureMissing (key : Bytes)
  | invalidSegmentKey (key : Bytes)
  | tailStart (key : Bytes) (start want : Int)
  | unreadable (key : Bytes) (cause : StoreError)
  | signatureInvalid (key : Bytes)
  | undecodable (key text : Bytes)
  | formatOrStream (key : Bytes)
  | tooManyEvents (key : Bytes)
  | sequenceMetadata (key : Bytes)
  | seqGap (key : Bytes) (want got : Int)
  | chainBroken (key : Bytes) (seq : Int)
  | contentType (key : Bytes)
  | notCanonical (key : Bytes)
  | diverges (key : Bytes)
  deriving DecidableEq

/-- The exporter's key and encoders. What is marshalled unmarshals to itself, the key's
signatures verify and have the Ed25519 size, and the public key fits its limit. -/
structure Exporter where
  codec : Codec
  marshal : WormSegment → Except Bytes Bytes
  unmarshal : Bytes → Except Bytes WormSegment
  marshalEvents : List WormEvent → Except Bytes Bytes
  sign : Bytes → Bytes
  verifies : Bytes → Bytes → Bool
  pubPEM : Bytes
  round : ∀ {segment raw}, marshal segment = .ok raw → unmarshal raw = .ok segment
  signed : ∀ raw, verifies raw (sign raw) = true
  sigSize : ∀ raw, (sign raw).length ≤ maxWORMSignatureBytes
  pubSize : pubPEM.length ≤ maxWORMPublicKeyBytes

/-- `%012d`. -/
def pad12 : Int → Bytes
  | .ofNat n => zeroPad 12 n
  | .negSucc n => 45 :: zeroPad 11 (n + 1)

def segmentKey (fromSeq toSeq : Int) : Bytes :=
  wormPrefix ++ (lit "segment-" ++ (pad12 fromSeq ++ (45 :: (pad12 toSeq ++ lit ".json"))))

def sigSuffix : Bytes := lit ".sig"

def trimSuffix (suffix s : Bytes) : Bytes := if suffix.isSuffixOf s then s.take (s.length - suffix.length) else s

def trimPrefix (front s : Bytes) : Bytes := (cutPrefix s front).getD s

/-- `%d` of `Sscanf` at digits: what a sign or blanks would let through does not print back. -/
def scanDigits (s : Bytes) : Option (Int × Bytes) :=
  let digits := s.takeWhile isDigit
  if digits = [] ∨ 2 ^ 63 ≤ digitsValue digits then none
  else some (digitsValue digits, s.dropWhile isDigit)

/-- `Sscanf(base, "segment-%d-%d")`. -/
def scanSegmentName (base : Bytes) : Option (Int × Int) := do
  let rest ← cutPrefix base (lit "segment-")
  let (fromSeq, rest) ← scanDigits rest
  let rest ← cutPrefix rest [45]
  let (toSeq, _) ← scanDigits rest
  some (fromSeq, toSeq)

/-- The sequences of a segment key that prints back. -/
def segmentRange (key : Bytes) : Option (Int × Int) := do
  let (fromSeq, toSeq) ← scanSegmentName (trimSuffix (lit ".json") (trimPrefix wormPrefix key))
  if key = segmentKey fromSeq toSeq then some (fromSeq, toSeq) else none

def canonicalWORMSegmentArtifactKey (artifactKey : Bytes) : Option (Bytes × Bool) := do
  let isSignature := sigSuffix.isSuffixOf artifactKey
  let key := trimSuffix sigSuffix artifactKey
  let (fromSeq, toSeq) ← segmentRange key
  if fromSeq ≤ 0 ∨ toSeq < fromSeq then none else some (key, isSignature)

structure ArtifactPair where
  json : Bool
  sig : Bool
  deriving DecidableEq

def setPair (pairs : List (Bytes × ArtifactPair)) (key : Bytes) (pair : ArtifactPair) : List (Bytes × ArtifactPair) :=
  if (pairs.lookup key).isSome then pairs.map fun entry => if entry.1 = key then (key, pair) else entry
  else pairs ++ [(key, pair)]

def enterArtifact (pairs : List (Bytes × ArtifactPair)) (artifactKey : Bytes) :
    Except WormFault (List (Bytes × ArtifactPair)) :=
  match canonicalWORMSegmentArtifactKey artifactKey with
  | none => .error (.invalidArtifact artifactKey)
  | some (key, isSignature) =>
    let pair := (pairs.lookup key).getD ⟨false, false⟩
    if isSignature then
      if pair.sig then .error (.duplicateSignature key) else .ok (setPair pairs key { pair with sig := true })
    else if pair.json then .error (.duplicateSegment key)
    else .ok (setPair pairs key { pair with json := true })

def checkPairs (pairs : List (Bytes × ArtifactPair)) (allowIncompleteTail : Bool) :
    List Bytes → Except WormFault (Option Bytes)
  | [] => .ok none
  | key :: rest =>
    let pair := (pairs.lookup key).getD ⟨false, false⟩
    if pair.json = false then .error (.orphanSignature key)
    else if pair.sig then checkPairs pairs allowIncompleteTail rest
    else if allowIncompleteTail = false ∨ rest ≠ [] then .error (.signatureMissing key)
    else .ok (some key)

def inventoryWORMSegmentArtifacts (keys : List Bytes) (allowIncompleteTail : Bool) :
    Except WormFault (List Bytes × Option Bytes) := do
  let pairs ← keys.foldlM enterArtifact []
  let segmentKeys := sort (pairs.map Prod.fst)
  let incompleteTail ← checkPairs pairs allowIncompleteTail segmentKeys
  .ok (segmentKeys, incompleteTail)

/-! The live source. -/

section Source
variable (c : Codec)

def scannedData (r : Row) : Except WormFault (Option c.Data) :=
  if 0 < r.data.length then (c.unmarshal r.data).mapError fun _ => .decodeEvent r.seq else .ok none

def scanProviderEvent (r : Row) : Except WormFault (Event c.Data) := do
  let data ← scannedData c r
  .ok
    { seq := r.seq, actor := r.actor, action := r.action, target := r.target, data, prevHash := r.prevHash,
      hash := r.hash, createdAtMicros := r.createdAtMicros, canonicalData := r.canonical }

def checkFirst {Data : Type} (head : StreamHead) (afterSeq : Int) (out : List (Event Data)) :
    Except WormFault (List (Event Data)) :=
  if head.headSeq ≤ afterSeq then .ok out
  else
    match out with
    | [] => .error (.noRow head.headSeq afterSeq)
    | first :: rest => if first.seq ≠ afterSeq + 1 then .error (.gap afterSeq first.seq) else .ok (first :: rest)

def clampLimit (limit : Nat) : Nat := if limit = 0 then defaultExportPageSize else min limit maxExportPageSize

/-- `ListProvider`. The head it reads back is the one appends left. -/
def listProvider (s : Stream) (afterSeq : Int) (limit : Nat) : Except WormFault (List (Event c.Data)) :=
  if afterSeq < 0 then .error .negativeCursor
  else do
    let (head, s) ← (ensureProviderStreamHead c s).mapError WormFault.source
    if afterSeq < head.prunedSeq then .error (.cursorBehind afterSeq head.prunedSeq)
    else if head.headSeq < afterSeq then .error (.cursorAbove afterSeq head.headSeq)
    else do
      let out ← ((after afterSeq s.rows).take (clampLimit limit)).mapM (scanProviderEvent c)
      checkFirst head afterSeq out

def validateProviderSource : (index : Nat) → (wantSeq : Int) → (prevHash : Bytes) → List (Event c.Data) →
    Except WormFault Unit
  | _, _, _, [] => .ok ()
  | index, wantSeq, prevHash, ev :: rest =>
    if ev.seq ≠ wantSeq then .error (.sourceSequence index wantSeq ev.seq)
    else if ev.prevHash ≠ prevHash then .error (.sourcePrevHash ev.seq)
    else do
      let wantHash ← (eventHash c providerStream ev).mapError WormFault.source
      if ev.hash ≠ wantHash then .error (.sourceHash ev.seq)
      else validateProviderSource (index + 1) (wantSeq + 1) ev.hash rest

end Source

/-! One call writes a list of objects, in order, and returns. -/

structure Plan (α : Type) where
  puts : List Put
  result : Except WormFault α

structure WormExportCursor where
  lastSeq : Int
  anchorHash : Bytes
  publicKeyEnsured : Bool
  deriving DecidableEq

def jsonObject (raw : Bytes) : Object := ⟨raw, lit "application/json"⟩
def sigObject (sig : Bytes) : Object := ⟨sig, lit "application/octet-stream"⟩
def pubKey : Bytes := wormPrefix ++ lit "signing.pub"
def pubObject (pem : Bytes) : Object := ⟨pem, lit "application/x-pem-file"⟩

namespace Exporter
variable (w : Exporter)

def ensurePublicKey (store : Store) : Except WormFault (List Put) :=
  match store.getLimited pubKey maxWORMPublicKeyBytes with
  | .ok pub => if pub.data ≠ w.pubPEM then .error .publicKeyDiffers else .ok []
  | .error .notFound => .ok [⟨pubKey, pubObject w.pubPEM⟩]
  | .error cause => .error (.publicKeyUnreadable cause)

def nextPage (s : Stream) (cursor : WormExportCursor) : Except WormFault (List (Event w.codec.Data)) := do
  let events ← listProvider w.codec s cursor.lastSeq maxExportPageSize
  if maxExportPageSize < events.length then .error (.pageTooLong events.length)
  else do
    validateProviderSource w.codec 0 (cursor.lastSeq + 1) cursor.anchorHash events
    .ok events

def publicKeyPuts (store : Store) (cursor : WormExportCursor) : Except WormFault (List Put) :=
  if cursor.publicKeyEnsured then .ok [] else w.ensurePublicKey store

def newSegment (first last : Event w.codec.Data) (events : List (Event w.codec.Data)) (now : Int) : WormSegment :=
  { formatVersion := 1, stream := lit "provider", fromSeq := first.seq, toSeq := last.seq, exportedAt := now,
    events := events.map minimizeEventForWORM }

def marshalBounded (segment : WormSegment) : Except WormFault Bytes := do
  let raw ← (w.marshal segment).mapError WormFault.marshal
  if maxWORMSegmentBytes < raw.length then .error .segmentTooLarge else .ok raw

def segmentPuts (segment : WormSegment) (raw : Bytes) : List Put :=
  [⟨segmentKey segment.fromSeq segment.toSeq, jsonObject raw⟩,
    ⟨segmentKey segment.fromSeq segment.toSeq ++ sigSuffix, sigObject (w.sign raw)⟩]

def exportPage (s : Stream) (store : Store) (cursor : WormExportCursor) (now : Int) : Plan (WormExportCursor × Nat) :=
  match w.nextPage s cursor with
  | .error fault => ⟨[], .error fault⟩
  | .ok events =>
    match w.publicKeyPuts store cursor with
    | .error fault => ⟨[], .error fault⟩
    | .ok pub =>
      match events.head?, events.getLast? with
      | some first, some last =>
        match w.marshalBounded (w.newSegment first last events now) with
        | .error fault => ⟨pub, .error fault⟩
        | .ok raw =>
          ⟨pub ++ w.segmentPuts (w.newSegment first last events now) raw, .ok (⟨last.seq, last.hash, true⟩, events.length)⟩
      | _, _ => ⟨pub, .ok ({ cursor with publicKeyEnsured := true }, 0)⟩

/-! The scan of the stored chain. -/

structure Position where
  wantSeq : Int
  prevHash : Bytes
  last : Int

def walkEvents (key : Bytes) : Position → List WormEvent → Except WormFault Position
  | pos, [] => .ok pos
  | pos, ev :: rest =>
    if ev.seq ≠ pos.wantSeq then .error (.seqGap key pos.wantSeq ev.seq)
    else if ev.prevHash ≠ pos.prevHash then .error (.chainBroken key ev.seq)
    else walkEvents key ⟨pos.wantSeq + 1, ev.hash, ev.seq⟩ rest

def metadataInvalid (segment : WormSegment) (keyFrom keyTo : Int) : Bool :=
  segment.events = [] || segment.fromSeq ≠ keyFrom || segment.toSeq ≠ keyTo ||
    (segment.events.head?.map WormEvent.seq) ≠ some segment.fromSeq ||
    (segment.events.getLast?.map WormEvent.seq) ≠ some segment.toSeq

def readSegment (store : Store) (key : Bytes) (keyFrom keyTo : Int) (pos : Position) : Except WormFault Position := do
  let object ← (store.getLimited key maxWORMSegmentBytes).mapError (WormFault.unreadable key)
  let sig ← (store.getLimited (key ++ sigSuffix) maxWORMSignatureBytes).mapError fun _ => WormFault.signatureMissing key
  if w.verifies object.data sig.data = false then .error (.signatureInvalid key)
  else do
    let segment ← (w.unmarshal object.data).mapError (WormFault.undecodable key)
    if segment.formatVersion ≠ 1 ∨ segment.stream ≠ lit "provider" then .error (.formatOrStream key)
    else if maxExportPageSize < segment.events.length then .error (.tooManyEvents key)
    else if metadataInvalid segment keyFrom keyTo then .error (.sequenceMetadata key)
    else walkEvents key pos segment.events

def readTail (store : Store) (key : Bytes) (keyFrom keyTo : Int) : Except WormFault (Bytes × WormSegment) := do
  let object ← (store.getLimited key maxWORMSegmentBytes).mapError (WormFault.unreadable key)
  if object.contentType ≠ lit "application/json" then .error (.contentType key)
  else do
    let segment ← (w.unmarshal object.data).mapError (WormFault.undecodable key)
    let canonical ← (w.marshal segment).mapError WormFault.marshal
    if object.data ≠ canonical then .error (.notCanonical key)
    else if segment.formatVersion ≠ 1 ∨ segment.stream ≠ lit "provider" ∨ segment.exportedAt = 0 then
      .error (.formatOrStream key)
    else if metadataInvalid segment keyFrom keyTo ∨ maxExportPageSize < segment.events.length ∨
        keyTo - keyFrom + 1 ≠ segment.events.length then .error (.sequenceMetadata key)
    else .ok (object.data, segment)

def compareTail (s : Stream) (key : Bytes) (segment : WormSegment) (lastSeq : Int) (anchorHash : Bytes) :
    Except WormFault Unit := do
  let live ← listProvider w.codec s lastSeq segment.events.length
  if live.length ≠ segment.events.length then .error (.diverges key)
  else do
    validateProviderSource w.codec 0 (lastSeq + 1) anchorHash live
    let expected ← (w.marshalEvents (live.map minimizeEventForWORM)).mapError WormFault.marshal
    let stored ← (w.marshalEvents segment.events).mapError WormFault.marshal
    if stored ≠ expected then .error (.diverges key) else .ok ()

def repairIncompleteWORMTail (s : Stream) (store : Store) (key : Bytes) (keyFrom keyTo lastSeq : Int) (anchorHash : Bytes) :
    Plan (Int × Bytes × Nat) :=
  match w.readTail store key keyFrom keyTo with
  | .error fault => ⟨[], .error fault⟩
  | .ok (raw, segment) =>
    match w.compareTail s key segment lastSeq anchorHash with
    | .error fault => ⟨[], .error fault⟩
    | .ok () =>
      ⟨[⟨key ++ sigSuffix, sigObject (w.sign raw)⟩],
        .ok (keyTo, (segment.events.getLast?.map WormEvent.hash).getD [], segment.events.length)⟩

def scanSegments (s : Stream) (store : Store) (incompleteTail : Option Bytes) : Position → List Bytes →
    Plan (Int × Bytes × Nat)
  | pos, [] => ⟨[], .ok (pos.last, pos.prevHash, 0)⟩
  | pos, key :: rest =>
    match segmentRange key with
    | none => ⟨[], .error (.invalidSegmentKey key)⟩
    | some (keyFrom, keyTo) =>
      if some key = incompleteTail then
        if keyFrom ≠ pos.wantSeq then ⟨[], .error (.tailStart key keyFrom pos.wantSeq)⟩
        else w.repairIncompleteWORMTail s store key keyFrom keyTo pos.last pos.prevHash
      else
        match w.readSegment store key keyFrom keyTo pos with
        | .error fault => ⟨[], .error fault⟩
        | .ok next => scanSegments s store incompleteTail next rest

def checkStoredKey (store : Store) (allowMissingPublicKey : Bool) : Except WormFault Unit :=
  match store.getLimited pubKey maxWORMPublicKeyBytes with
  | .ok pub => if pub.data ≠ w.pubPEM then .error .publicKeyDiffers else .ok ()
  | .error .notFound => if allowMissingPublicKey then .ok () else .error (.publicKeyUnreadable .notFound)
  | .error cause => .error (.publicKeyUnreadable cause)

def inventory (store : Store) (allowIncompleteTail : Bool) : Except WormFault (List Bytes × Option Bytes) :=
  match store.listLimited (wormPrefix ++ lit "segment-") maxWORMSegmentArtifacts with
  | none => .error .tooManyArtifacts
  | some keys => inventoryWORMSegmentArtifacts keys allowIncompleteTail

def scanWORMChainWithOptions (s : Stream) (store : Store) (allowIncompleteTail allowMissingPublicKey : Bool) :
    Plan (Int × Bytes × Nat) :=
  match inventory store allowIncompleteTail with
  | .error fault => ⟨[], .error fault⟩
  | .ok ([], _) => ⟨[], .ok (0, [], 0)⟩
  | .ok (segmentKeys, incompleteTail) =>
    match w.checkStoredKey store allowMissingPublicKey with
    | .error fault => ⟨[], .error fault⟩
    | .ok () => w.scanSegments s store incompleteTail ⟨1, [], 0⟩ segmentKeys

def lastExportedHead (s : Stream) (store : Store) : Plan (Int × Bytes × Nat) :=
  w.scanWORMChainWithOptions s store true true

def exportedWatermark (s : Stream) (store : Store) : Except WormFault Int :=
  (w.scanWORMChainWithOptions s store false false).result.map Prod.fst

def verifyWORMChain (s : Stream) (store : Store) : Except WormFault Unit :=
  (w.scanWORMChainWithOptions s store false false).result.map fun _ => ()

/-- `ExportOnce`: the scan, then one page on the store the scan left. -/
def exportOnce (s : Stream) (store : Store) (now : Int) : Plan Nat :=
  let scanned := w.lastExportedHead s store
  match scanned.result with
  | .error fault => ⟨scanned.puts, .error fault⟩
  | .ok (last, anchorHash, repaired) =>
    let page := w.exportPage s (store.putAll scanned.puts) ⟨last, anchorHash, false⟩ now
    ⟨scanned.puts ++ page.puts, page.result.map fun out => repaired + out.2⟩

end Exporter

end Probectl.Audit
