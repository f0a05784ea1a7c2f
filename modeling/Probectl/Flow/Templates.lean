import Probectl.Lib.Octets
import Probectl.Lib.Records
import Probectl.Lib.Run

/-! Templates of NetFlow v9 and IPFIX: how they are read off a set, and the
cache that holds them (`templates.go`, and `parseTemplates` of both decoders). -/
namespace Probectl.Flow

open Octets List Run AList Option

structure TemplateField where
  id : Nat
  length : Nat
  enterprise : Nat
  deriving DecidableEq

/-- A template as it is sent; a withdrawal has no fields. -/
structure Template where
  fields : List TemplateField
  options : Bool
  scopeLen : Nat
  deriving DecidableEq

namespace Template

/-- The length that stands for a variable one. -/
def variableLength : Nat := 0xFFFF

def isVariable (t : Template) : Bool := t.fields.any (·.length = variableLength)

def width (t : Template) : Nat := ((t.fields.filter (·.length ≠ variableLength)).map (·.length)).sum

def fixedWidth (t : Template) : Nat := if t.isVariable then 0 else t.width

theorem fixedWidth_eq {t : Template} (fixed : t.fixedWidth ≠ 0) : (t.fields.map (·.length)).sum = t.fixedWidth := by
  unfold fixedWidth at fixed ⊢
  split at fixed
  · exact absurd rfl fixed
  rename_i constant
  have all : t.fields.filter (·.length ≠ variableLength) = t.fields := by
    rw [List.filter_eq_self]
    intro f mem
    simp only [isVariable, Bool.not_eq_true, List.any_eq_false] at constant
    simpa using constant f mem
  rw [if_neg constant, width, all]

end Template

/-! Reading template sets. -/

def readFields : Nat → Bytes → List TemplateField
  | 0, _ => []
  | n + 1, raw => ⟨big (raw.take 2), big (slice raw 2 4), 0⟩ :: readFields n (raw.drop 4)

@[simp] theorem readFields_length (n : Nat) (raw : Bytes) : (readFields n raw).length = n := by
  induction n generalizing raw with
  | zero => rfl
  | succ n ih => simp [readFields, ih]

/-- `parseTemplates` of NetFlow v9, one record. -/
def nf9Templates : Reader UInt8 (Nat × Template) where
  read := fun raw =>
    let tid := big (raw.take 2)
    let fc := big (slice raw 2 4)
    let rest := raw.drop 4
    if raw.length < 4 then none
    else if tid < 256 ∨ fc = 0 ∨ fc > 512 ∨ fc * 4 > rest.length then none
    else some ((tid, ⟨readFields fc rest, false, 0⟩), rest.drop (fc * 4))
  shrinks := by
    intro raw x rest found
    dsimp only at found
    obtain ⟨long, found⟩ := guard_some found
    obtain ⟨-, found⟩ := guard_some found
    cases found
    simp only [length_drop]
    omega

/-- `parseOptionsTemplates` of NetFlow v9, one record. -/
def nf9OptionsTemplates : Reader UInt8 (Nat × Template) where
  read := fun raw =>
    let tid := big (raw.take 2)
    let scopeBytes := big (slice raw 2 4)
    let optionBytes := big (slice raw 4 6)
    let rest := raw.drop 6
    if raw.length < 6 then none
    else if tid < 256 ∨ scopeBytes + optionBytes > rest.length ∨ scopeBytes + optionBytes = 0 ∨ scopeBytes % 4 ≠ 0 ∨
        optionBytes % 4 ≠ 0 then
      none
    else if scopeBytes / 4 + optionBytes / 4 > 512 then none
    else
      some ((tid, ⟨readFields (scopeBytes / 4 + optionBytes / 4) rest, true, scopeBytes / 4⟩),
        rest.drop (4 * (scopeBytes / 4 + optionBytes / 4)))
  shrinks := by
    intro raw x rest found
    dsimp only at found
    obtain ⟨long, found⟩ := guard_some found
    obtain ⟨-, found⟩ := guard_some found
    obtain ⟨-, found⟩ := guard_some found
    cases found
    simp only [length_drop]
    omega

/-- Field specifiers; the enterprise bit announces four more octets. -/
def ipfixFields : Nat → Bytes → Option (List TemplateField × Bytes)
  | 0, raw => some ([], raw)
  | n + 1, raw =>
    let typ := big (raw.take 2)
    let length := big (slice raw 2 4)
    if raw.length < 4 then none
    else if typ ≥ 0x8000 then
      if (raw.drop 4).length < 4 then none
      else (ipfixFields n (raw.drop 8)).map fun (fields, rest) => (⟨typ % 0x8000, length, big (slice raw 4 8)⟩ :: fields, rest)
    else (ipfixFields n (raw.drop 4)).map fun (fields, rest) => (⟨typ, length, 0⟩ :: fields, rest)

theorem ipfixFields_some
    (read : ipfixFields n raw = some (fields, rest)) : fields.length = n ∧ rest.length ≤ raw.length := by
  induction n generalizing raw fields with
  | zero =>
    cases read
    exact ⟨rfl, le_rfl⟩
  | succ n ih =>
    obtain ⟨-, read⟩ := guard_some read
    split at read
    · obtain ⟨-, read⟩ := guard_some read
      obtain ⟨⟨more, left⟩, later, same⟩ := map_eq_some_iff.mp read
      cases same
      obtain ⟨count, shorter⟩ := ih later
      rw [length_drop] at shorter
      exact ⟨congrArg (· + 1) count, by omega⟩
    · obtain ⟨⟨more, left⟩, later, same⟩ := map_eq_some_iff.mp read
      cases same
      obtain ⟨count, shorter⟩ := ih later
      rw [length_drop] at shorter
      exact ⟨congrArg (· + 1) count, by omega⟩

/-- The octets before the fields of an IPFIX template. -/
def ipfixTemplateHeader (options : Bool) : Nat := if options then 6 else 4

def ipfixScope (options : Bool) (raw : Bytes) : Nat := if options then big (slice raw 4 6) else 0

/-- `parseTemplates` of IPFIX, one record. -/
def ipfixTemplates (options : Bool) : Reader UInt8 (Nat × Template) where
  read := fun raw =>
    let tid := big (raw.take 2)
    let fc := big (slice raw 2 4)
    let scope := ipfixScope options raw
    if raw.length < ipfixTemplateHeader options then none
    else if tid < 256 ∨ fc = 0 ∨ fc > 512 ∨ scope > fc then none
    else
      match ipfixFields fc (raw.drop (ipfixTemplateHeader options)) with
      | none => none
      | some (fields, rest) => some ((tid, ⟨fields, options, scope⟩), rest)
  shrinks := by
    intro raw x rest found
    dsimp only at found
    obtain ⟨long, found⟩ := guard_some found
    obtain ⟨-, found⟩ := guard_some found
    split at found
    · cases found
    rename_i fields left read
    cases found
    have shorter := (ipfixFields_some read).2
    have header : 0 < ipfixTemplateHeader options := by cases options <;> decide
    rw [length_drop] at shorter
    omega

/-! What is sent, record by record, whether a decoder takes it or not. -/

def nf9Received : Reader UInt8 (Nat × Template) where
  read := fun raw =>
    let fc := big (slice raw 2 4)
    let rest := raw.drop 4
    if raw.length < 4 ∨ fc * 4 > rest.length then none
    else some ((big (raw.take 2), ⟨readFields fc rest, false, 0⟩), rest.drop (fc * 4))
  shrinks := by
    intro raw x rest found
    dsimp only at found
    obtain ⟨long, found⟩ := guard_some found
    cases found
    simp only [length_drop]
    omega

/-- The records of an options set; lengths that hold no specifiers give none. -/
def nf9OptionsReceived : Reader UInt8 (Nat × Template) where
  read := fun raw =>
    let scopeBytes := big (slice raw 2 4)
    let optionBytes := big (slice raw 4 6)
    let rest := raw.drop 6
    if raw.length < 6 ∨ scopeBytes + optionBytes > rest.length then none
    else if scopeBytes % 4 ≠ 0 ∨ optionBytes % 4 ≠ 0 then
      some ((big (raw.take 2), ⟨[], true, 0⟩), rest.drop (scopeBytes + optionBytes))
    else
      some ((big (raw.take 2), ⟨readFields (scopeBytes / 4 + optionBytes / 4) rest, true, scopeBytes / 4⟩),
        rest.drop (scopeBytes + optionBytes))
  shrinks := by
    intro raw x rest found
    dsimp only at found
    obtain ⟨long, found⟩ := guard_some found
    split at found
    all_goals
      cases found
      simp only [length_drop]
      omega

/-- The records of an IPFIX template set; a withdrawal is four octets long. -/
def ipfixReceived (options : Bool) : Reader UInt8 (Nat × Template) where
  read := fun raw =>
    let tid := big (raw.take 2)
    let fc := big (slice raw 2 4)
    if raw.length < 4 then none
    else if fc = 0 then some ((tid, ⟨[], options, 0⟩), raw.drop 4)
    else if raw.length < ipfixTemplateHeader options then none
    else
      match ipfixFields fc (raw.drop (ipfixTemplateHeader options)) with
      | none => none
      | some (fields, rest) => some ((tid, ⟨fields, options, ipfixScope options raw⟩), rest)
  shrinks := by
    intro raw x rest found
    dsimp only at found
    obtain ⟨long, found⟩ := guard_some found
    split at found
    · cases found
      simp only [length_drop]
      omega
    obtain ⟨-, found⟩ := guard_some found
    split at found
    · cases found
    rename_i _ _ _ fields left read
    cases found
    have shorter := (ipfixFields_some read).2
    have header : 0 < ipfixTemplateHeader options := by cases options <;> decide
    rw [length_drop] at shorter
    omega

def acceptable (record : Nat × Template) : Bool :=
  256 ≤ record.1 ∧ 0 < record.2.fields.length ∧ record.2.fields.length ≤ 512 ∧ record.2.scopeLen ≤ record.2.fields.length

theorem acceptable_nil (tid : Nat) (options : Bool) (scope : Nat) : acceptable (tid, ⟨[], options, scope⟩) = false := by
  simp [acceptable]

theorem nf9Templates_eq : nf9Templates = nf9Received.only acceptable := by
  ext raw : 1
  simp only [nf9Templates, nf9Received, Reader.only]
  generalize big (raw.take 2) = tid
  generalize big (slice raw 2 4) = fc
  by_cases short : raw.length < 4 ∨ fc * 4 > (raw.drop 4).length
  · split
    · rfl
    · rw [if_pos (by tauto)]
      rfl
  rw [if_neg short, if_neg (fun less => short (.inl less)), filter_some]
  simp only [acceptable, readFields_length]
  by_cases refused : tid < 256 ∨ fc = 0 ∨ fc > 512 ∨ fc * 4 > (raw.drop 4).length
  · rw [if_pos refused, if_neg]
    rw [decide_eq_true_eq]
    omega
  · rw [if_neg refused, if_pos]
    rw [decide_eq_true_eq]
    omega

theorem nf9OptionsTemplates_eq : nf9OptionsTemplates = nf9OptionsReceived.only acceptable := by
  ext raw : 1
  simp only [nf9OptionsTemplates, nf9OptionsReceived, Reader.only]
  generalize big (raw.take 2) = tid
  generalize big (slice raw 2 4) = scopeBytes
  generalize big (slice raw 4 6) = optionBytes
  by_cases short : raw.length < 6 ∨ scopeBytes + optionBytes > (raw.drop 6).length
  · split
    · rfl
    · rw [if_pos (by tauto)]
      rfl
  rw [if_neg short, if_neg (fun less => short (.inl less))]
  by_cases uneven : scopeBytes % 4 ≠ 0 ∨ optionBytes % 4 ≠ 0
  · rw [if_pos uneven, if_pos (by tauto), filter_some, acceptable_nil]
    rfl
  rw [if_neg uneven, filter_some]
  simp only [acceptable, readFields_length]
  by_cases refused : tid < 256 ∨ scopeBytes + optionBytes > (raw.drop 6).length ∨ scopeBytes + optionBytes = 0 ∨
      scopeBytes % 4 ≠ 0 ∨ optionBytes % 4 ≠ 0
  · rw [if_pos refused, if_neg]
    rw [decide_eq_true_eq]
    omega
  rw [if_neg refused]
  by_cases many : scopeBytes / 4 + optionBytes / 4 > 512
  · rw [if_pos many, if_neg]
    rw [decide_eq_true_eq]
    omega
  · have lengths : 4 * (scopeBytes / 4 + optionBytes / 4) = scopeBytes + optionBytes := by omega
    rw [if_neg many, if_pos, lengths]
    rw [decide_eq_true_eq]
    omega

theorem ipfixTemplates_eq (options : Bool) : ipfixTemplates options = (ipfixReceived options).only acceptable := by
  ext raw : 1
  simp only [ipfixTemplates, ipfixReceived, Reader.only]
  have header : 4 ≤ ipfixTemplateHeader options := by cases options <;> decide
  by_cases short : raw.length < ipfixTemplateHeader options
  · rw [if_pos short]
    split
    · rfl
    split
    · rw [filter_some, acceptable_nil]
      rfl
    · rfl
  have long : ¬ raw.length < 4 := by omega
  rw [if_neg short, if_neg short, if_neg long]
  by_cases withdrawn : big (slice raw 2 4) = 0
  · have refused : big (raw.take 2) < 256 ∨ big (slice raw 2 4) = 0 ∨ big (slice raw 2 4) > 512 ∨
        ipfixScope options raw > big (slice raw 2 4) := .inr (.inl withdrawn)
    rw [if_pos refused, if_pos withdrawn, filter_some, acceptable_nil]
    rfl
  rw [if_neg withdrawn]
  cases read : ipfixFields (big (slice raw 2 4)) (raw.drop (ipfixTemplateHeader options)) with
  | none =>
    split <;> rfl
  | some found =>
    rw [filter_some]
    simp only [acceptable, (ipfixFields_some read).1]
    by_cases refused : big (raw.take 2) < 256 ∨ big (slice raw 2 4) = 0 ∨ big (slice raw 2 4) > 512 ∨
        ipfixScope options raw > big (slice raw 2 4)
    · rw [if_pos refused, if_neg]
      rw [decide_eq_true_eq]
      omega
    · rw [if_neg refused, if_pos]
      rw [decide_eq_true_eq]
      omega

/-! The cache. -/

structure TemplateKey where
  exporter : Bytes
  domain : Nat
  id : Nat
  deriving DecidableEq

structure TemplateRecord where
  template : Template
  added : Int
  deriving DecidableEq

abbrev TemplateEntry := Sigma fun _ : TemplateKey => TemplateRecord

structure TemplateCache where
  ttl : Int
  max : Nat
  m : AList fun _ : TemplateKey => TemplateRecord

def newTemplateCache (ttl maxEntries : Int) : TemplateCache :=
  ⟨if ttl ≤ 0 then 30 * 60 * 1000000000 else ttl, if maxEntries ≤ 0 then 4096 else maxEntries.toNat, ∅⟩

namespace TemplateCache

/-- The entry added first, where `entries` has them in the order of the map's
iteration. -/
def oldest (entries : List TemplateEntry) : Option TemplateEntry :=
  entries.foldl (fun best entry =>
    match best with
    | none => some entry
    | some best => if entry.2.added < best.2.added then some entry else some best) none

def evictOldest (c : TemplateCache) (order : List TemplateEntry → List TemplateEntry) : TemplateCache :=
  match oldest (order c.m.entries) with
  | none => c
  | some entry => { c with m := c.m.erase entry.1 }

def storable (t : Template) : Bool := t.width ≠ 0 ∨ t.isVariable

def evicts (c : TemplateCache) (k : TemplateKey) (t : Template) : Bool :=
  storable t ∧ c.m.lookup k = none ∧ c.m.keys.length ≥ c.max

def put (c : TemplateCache) (k : TemplateKey) (t : Template) (now : Int)
    (order : List TemplateEntry → List TemplateEntry) : TemplateCache :=
  if ¬ storable t then c
  else
    let c := if c.evicts k t then c.evictOldest order else c
    { c with m := c.m.insert k ⟨t, now⟩ }

def get (c : TemplateCache) (k : TemplateKey) (now : Int) : Option Template × TemplateCache :=
  match c.m.lookup k with
  | none => (none, c)
  | some record =>
    if now - record.added > c.ttl then (none, { c with m := c.m.erase k }) else (some record.template, c)

/-! What the operations do to one key. -/

variable {c : TemplateCache} {k : TemplateKey} {record : TemplateRecord}
  {order : List TemplateEntry → List TemplateEntry}

theorem evictOldest_lookup (held : (c.evictOldest order).m.lookup k = some record) : c.m.lookup k = some record := by
  unfold evictOldest at held
  split at held
  · exact held
  rename_i entry _
  by_cases gone : k = entry.1
  · rw [gone, lookup_erase] at held
    cases held
  · rwa [lookup_erase_ne gone] at held

variable {key : TemplateKey} {now : Int} {t : Template}

theorem put_lookup (held : (c.put key t now order).m.lookup k = some record) :
    (storable t = true ∧ k = key ∧ record = ⟨t, now⟩) ∨
      ((storable t = true → k ≠ key) ∧ c.m.lookup k = some record) := by
  unfold put at held
  split at held
  · rename_i refused
    exact .inr ⟨fun stored => absurd stored refused, held⟩
  rename_i stored
  rw [not_not] at stored
  by_cases same : k = key
  · subst same
    rw [lookup_insert] at held
    exact .inl ⟨stored, rfl, (Option.some.inj held).symm⟩
  · rw [lookup_insert_ne same] at held
    refine .inr ⟨fun _ => same, ?_⟩
    split at held
    · exact evictOldest_lookup held
    · exact held

theorem get_lookup (held : (c.get key now).2.m.lookup k = some record) : c.m.lookup k = some record := by
  unfold get at held
  split at held
  · exact held
  split at held
  · by_cases gone : k = key
    · rw [gone, lookup_erase] at held
      cases held
    · rwa [lookup_erase_ne gone] at held
  · exact held

theorem get_some (found : (c.get key now).1 = some t) : ∃ added, c.m.lookup key = some ⟨t, added⟩ := by
  unfold get at found
  split at found
  · cases found
  rename_i record held
  split at found
  · cases found
  · cases found
    exact ⟨record.added, held⟩

end TemplateCache

end Probectl.Flow
