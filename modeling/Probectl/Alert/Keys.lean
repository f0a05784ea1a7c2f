import Probectl.Alert.Engine

/-! The keys of the series states: `stateKey` of `state.go`, `labelsFromStateKey` of
`engine.go` and the labels `trapSample` of `alerteval.go` names a trap series by. A key
joins names and values without escaping them. -/
namespace Probectl.Alerts

open Strings List Engine

def trapName (oid : Bytes) : Bytes :=
  let dotted := 46 :: (cutPrefix oid [46]).getD oid
  if dotted = lit ".1.3.6.1.6.3.1.1.5.1" then lit "coldStart"
  else if dotted = lit ".1.3.6.1.6.3.1.1.5.2" then lit "warmStart"
  else if dotted = lit ".1.3.6.1.6.3.1.1.5.3" then lit "linkDown"
  else if dotted = lit ".1.3.6.1.6.3.1.1.5.4" then lit "linkUp"
  else if dotted = lit ".1.3.6.1.6.3.1.1.5.5" then lit "authenticationFailure"
  else []

def trapLabels (deviceAddress trapOID : Bytes) : Labels :=
  [(lit "device", deviceAddress), (lit "trap_oid", trapOID),
    (lit "trap_name", if trapName trapOID = [] then trapOID else trapName trapOID)]

/-- One segment of a key. What is read later stands in front: a map keeps the last value
of a name. -/
def addPair (out : Labels) (pair : Bytes) : Labels :=
  match cut 61 pair with
  | some (k, v) => if k ≠ [] then (k, v) :: out else out
  | none => out

def labelsFromStateKey (key front : Bytes) : Labels :=
  (((cutPrefix key front).getD key).splitOn 59).foldl addPair []

abbrev Plain (name : Bytes) : Prop := name ≠ [] ∧ 61 ∉ name ∧ 59 ∉ name

/-- No name holds an `=` or a `;`, and no value holds a `;`. -/
abbrev Separable (labels : Labels) : Prop := ∀ p ∈ labels, Plain p.1 ∧ 59 ∉ p.2

/-- The labels in the order of the key. -/
def entries (labels : Labels) : Labels :=
  (sort (labels.map Prod.fst)).map fun k => (k, label labels k)

def joined (labels : Labels) : Bytes := labels.flatMap fun p => p.1 ++ (61 :: p.2) ++ [59]

theorem fingerprint_joined (labels : Labels) : fingerprint labels = joined (entries labels) := by
  rw [joined, entries, flatMap_map]
  rfl

variable {labels labels' : Labels} {id id' : Bytes}

theorem mem_names {k : Bytes} : k ∈ sort (labels.map Prod.fst) ↔ ∃ v, (k, v) ∈ labels := by
  unfold sort
  simp

theorem mem_of_lookup {k v : Bytes} (found : labels.lookup k = some v) : (k, v) ∈ labels := by
  obtain ⟨before, behind, rfl, -⟩ := lookup_eq_some_iff.mp found
  simp

theorem lookup_entries (labels : Labels) (k : Bytes) :
    (entries labels).reverse.lookup k = labels.lookup k := by
  cases found : labels.lookup k with
  | none =>
    rw [lookup_eq_none_iff] at found ⊢
    intro p mem
    obtain ⟨name, named, rfl⟩ := mem_map.mp (mem_reverse.mp mem)
    obtain ⟨v, held⟩ := mem_names.mp named
    exact found (name, v) held
  | some v =>
    have named : k ∈ sort (labels.map Prod.fst) := mem_names.mpr ⟨v, mem_of_lookup found⟩
    rw [entries, ← map_reverse, lookup_graph _ (mem_reverse.mpr named), label, found]
    rfl

theorem Separable.entries (clear : Separable labels) : Separable (entries labels) := by
  intro p mem
  obtain ⟨k, named, rfl⟩ := mem_map.mp mem
  obtain ⟨v, held⟩ := mem_names.mp named
  refine ⟨(clear (k, v) held).1, ?_⟩
  unfold label
  cases found : labels.lookup k with
  | none => exact not_mem_nil
  | some v => exact (clear (k, v) (mem_of_lookup found)).2

theorem splitOn_joined (clear : Separable labels) (out : Labels) :
    ((joined labels).splitOn 59).foldl addPair out = labels.reverse ++ out := by
  induction labels generalizing out with
  | nil => rfl
  | cons p rest ih =>
    obtain ⟨⟨⟨some, equals, name⟩, value⟩, later⟩ := forall_mem_cons.mp clear
    have whole : 59 ∉ p.1 ++ 61 :: p.2 := by simp [name, value]
    have added : addPair out (p.1 ++ 61 :: p.2) = p :: out := by simp [addPair, cut_append equals, some]
    rw [joined, flatMap_cons, append_assoc, singleton_append,
      splitOn_append_cons_self_of_not_mem whole, foldl_cons, added]
    exact (ih later _).trans (by simp)

/-- What follows the rule id in a key. -/
theorem cutPrefix_stateKey (id : Bytes) (labels : Labels) :
    (cutPrefix (stateKey id labels) (id ++ [124])).getD (stateKey id labels) = fingerprint labels := by
  rw [cutPrefix_some.mpr (show stateKey id labels = id ++ [124] ++ fingerprint labels by simp [stateKey])]
  rfl

/-- A key gives the labels back. -/
theorem labelsFromStateKey_stateKey (clear : Separable labels) (id k : Bytes) :
    (labelsFromStateKey (stateKey id labels) (id ++ [124])).lookup k = labels.lookup k := by
  rw [labelsFromStateKey, cutPrefix_stateKey, fingerprint_joined, splitOn_joined clear.entries, append_nil,
    lookup_entries]

/-- No segment of a key holds a `;`. -/
theorem splitOn_clear (text : Bytes) : ∀ pair ∈ text.splitOn 59, 59 ∉ pair := by
  induction text with
  | nil => simp
  | cons b text ih =>
    rw [splitOn_cons_eq_if_modifyHead]
    split
    · exact forall_mem_cons.mpr ⟨not_mem_nil, ih⟩
    case isFalse other =>
      cases rest : text.splitOn 59 with
      | nil => simp
      | cons first more =>
        obtain ⟨here, later⟩ := forall_mem_cons.mp (rest ▸ ih)
        have next : 59 ∉ b :: first :=
          not_mem_cons_of_ne_of_not_mem (fun same => other (by simp [← same])) here
        exact forall_mem_cons.mpr ⟨next, later⟩

theorem labelsFromStateKey_clear (key front : Bytes) :
    ∀ p ∈ labelsFromStateKey key front, 59 ∉ p.2 := by
  refine foldlRecOn (motive := fun out : Labels => ∀ p ∈ out, 59 ∉ p.2) _ addPair ?_ ?_
  · simp
  intro out clear pair mem
  unfold addPair
  split
  case h_1 k v found =>
    obtain ⟨rfl, -⟩ := cut_some found
    have value : 59 ∉ v := fun inside => splitOn_clear _ _ mem (by simp [inside])
    split
    · exact forall_mem_cons.mpr ⟨value, clear⟩
    · exact clear
  case h_2 => exact clear

/-- The key of any labels is also the key of a single one. -/
theorem stateKey_merged (id : Bytes) (p : Bytes × Bytes) (labels : Labels) :
    ∃ k v, stateKey id (p :: labels) = stateKey id [(k, v)] := by
  have single (k v : Bytes) : fingerprint [(k, v)] = k ++ 61 :: v ++ [59] := by
    simp [fingerprint, sort, label]
  cases named : entries (p :: labels) with
  | nil => simp [entries, sort, ← length_eq_zero_iff, orderedInsert_length] at named
  | cons first rest =>
    refine ⟨first.1, ?_⟩
    simp only [stateKey, single, fingerprint_joined, named, joined, flatMap_cons]
    rcases rest.eq_nil_or_concat with rfl | ⟨before, last, rfl⟩
    · exact ⟨first.2, by simp⟩
    · exact ⟨first.2 ++ 59 :: joined before ++ last.1 ++ 61 :: last.2, by simp [joined]⟩

theorem stateKey_id (plain : 124 ∉ id) : cut 124 (stateKey id labels) = some (id, fingerprint labels) :=
  cut_append plain _

theorem trapLabels_separable {device oid : Bytes} (address : 59 ∉ device) (dotted : 59 ∉ oid) :
    Separable (trapLabels device oid) := by
  have known : 59 ∉ trapName oid := by
    unfold trapName
    dsimp only
    split_ifs <;> decide
  have name : 59 ∉ (if trapName oid = [] then oid else trapName oid) := by
    split
    · exact dotted
    · exact known
  have names : ∀ name ∈ [lit "device", lit "trap_oid", lit "trap_name"], Plain name := by decide
  exact forall_mem_cons.mpr ⟨⟨names _ (by simp), address⟩, forall_mem_cons.mpr
    ⟨⟨names _ (by simp), dotted⟩, forall_mem_singleton.mpr ⟨names _ (by simp), name⟩⟩⟩

/-- Series with different rules or labels have different keys, and a trap series can be
named from its key alone exactly where neither its address nor its OID holds a `;`. A
condition on one of two series is never enough: its key is also that of a single label. -/
theorem state_keys_apart (plain : 124 ∉ id) (plain' : 124 ∉ id') (clear : Separable labels)
    (clear' : Separable labels') (device oid : Bytes) :
    (stateKey id labels = stateKey id' labels' →
        id = id' ∧ ∀ k, labels.lookup k = labels'.lookup k) ∧
      ((∀ k, (labelsFromStateKey (stateKey id (trapLabels device oid)) (id ++ [124])).lookup k =
        (trapLabels device oid).lookup k) ↔ 59 ∉ device ∧ 59 ∉ oid) ∧
      ∀ p more, ∃ k v, stateKey id (p :: more) = stateKey id [(k, v)] := by
  refine ⟨?_, ⟨?_, ?_⟩, stateKey_merged id⟩
  · intro same
    have cuts := @stateKey_id labels id plain
    rw [same, stateKey_id plain'] at cuts
    obtain ⟨rfl, -⟩ := Prod.mk.inj (Option.some.inj cuts)
    refine ⟨rfl, fun k => ?_⟩
    rw [← labelsFromStateKey_stateKey clear id', same, labelsFromStateKey_stateKey clear']
  · intro recovered
    have value {k v : Bytes} (held : (trapLabels device oid).lookup k = some v) : 59 ∉ v :=
      labelsFromStateKey_clear _ _ _ (mem_of_lookup ((recovered k).trans held))
    exact ⟨@value (lit "device") device rfl, @value (lit "trap_oid") oid rfl⟩
  · rintro ⟨address, dotted⟩ k
    exact labelsFromStateKey_stateKey (trapLabels_separable address dotted) id k

theorem state_keys_apart_two :
    (stateKey (lit "r1") [(lit "host", lit "a=b")] = stateKey (lit "r1") [(lit "host", lit "a")] →
      lit "r1" = lit "r1" ∧ ∀ k, [(lit "host", lit "a=b")].lookup k = [(lit "host", lit "a")].lookup k) ∧
      ∀ k, (labelsFromStateKey (stateKey (lit "r1") (trapLabels (lit "192.0.2.1") (lit ".1.3")))
        (lit "r1" ++ [124])).lookup k = (trapLabels (lit "192.0.2.1") (lit ".1.3")).lookup k :=
  have apart := @state_keys_apart [(lit "host", lit "a=b")] [(lit "host", lit "a")] (lit "r1") (lit "r1")
    (by decide) (by decide) (by decide) (by decide) (lit "192.0.2.1") (lit ".1.3")
  ⟨apart.1, apart.2.1.mpr (by decide)⟩

/-- A value with a `;` in it: two label sets share one state, and a device address is
cut short. -/
theorem state_keys_shared :
    stateKey (lit "r1") [(lit "host", lit "a;zone=b")] = stateKey (lit "r1") [(lit "host", lit "a"), (lit "zone", lit "b")] ∧
      (labelsFromStateKey (stateKey (lit "r1") (trapLabels (lit "a;b") (lit ".1.3"))) (lit "r1" ++ [124])).lookup
        (lit "device") = some (lit "a") := by
  decide +kernel

end Probectl.Alerts
