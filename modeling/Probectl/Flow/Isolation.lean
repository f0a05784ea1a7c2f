import Probectl.Flow.Freshness
import Probectl.Lib.Maps

/-! Two runs: what one exporter sends in one template protocol is decoded as if
nothing else had been sent. -/
namespace Probectl.Flow

open Relation List AList Tables Datagram

def TableOp.evicts : TableOp → Bool
  | .receive _ _ _ _ evicts => evicts
  | _ => false

def TableOp.resets : TableOp → Bool
  | .sample _ _ resets => resets
  | _ => false

def Clean (log : List TableOp) : Prop := ∀ op ∈ log, op.evicts = false ∧ op.resets = false

/-- The tables `u` hold what `s` holds of the `own` exporters and domains, and
nothing else. -/
structure Restricts (own : Bytes → Nat → Prop) (s u : Tables) : Prop where
  ttl : u.templates.ttl = s.templates.ttl
  max : u.templates.max = s.templates.max
  templates : ∀ k, own k.exporter k.domain → u.templates.m.lookup k = s.templates.m.lookup k
  foreign : ∀ k, ¬ own k.exporter k.domain → u.templates.m.lookup k = none
  sampling : ∀ exporter domain, own exporter domain →
    u.sampling.lookup (samplingKey exporter domain) = s.sampling.lookup (samplingKey exporter domain)
  sampled : ∀ key, u.sampling.lookup key ≠ none → s.sampling.lookup key ≠ none

variable {t : Tables} {exporter : Bytes} {r : Reading}

namespace Restricts

variable {own : Bytes → Nat → Prop} {s u : Tables}

theorem held_sub (rel : Restricts own s u) (k : TemplateKey) (held : u.templates.m.lookup k ≠ none) :
    s.templates.m.lookup k ≠ none := by
  by_cases mine : own k.exporter k.domain
  · rwa [← rel.templates k mine]
  · exact absurd (rel.foreign k mine) held

/-! Accesses that both runs make. -/

variable {key : TemplateKey}

section
variable (rel : Restricts own s u)
include rel

theorem evicts_false (mine : own key.exporter key.domain) {t : Template}
    (clean : s.templates.evicts key t = false) : u.templates.evicts key t = false := by
  simp only [TemplateCache.evicts, decide_eq_false_iff_not] at clean ⊢
  rintro ⟨stored, missing, full⟩
  have fewer := Maps.keys_length_le rel.held_sub
  rw [rel.templates key mine] at missing
  rw [rel.max] at full
  exact clean ⟨stored, missing, full.trans fewer⟩

theorem put (env : Env) (mine : own key.exporter key.domain) (t : Template)
    (ticks : u.tick = s.tick) (clean : s.templates.evicts key t = false) :
    Restricts own (s.put env key t) (u.put env key t) := by
  have cleanU := rel.evicts_false mine clean
  unfold Tables.put TemplateCache.put
  rw [clean, cleanU, ticks]
  split
  · exact { rel with }
  refine { rel with templates := fun k here => ?_, foreign := fun k other => ?_ }
  · by_cases same : k = key
    · rw [same, lookup_insert, lookup_insert]
    · rw [lookup_insert_ne same, lookup_insert_ne same]
      exact rel.templates k here
  · have different : k ≠ key := by
      rintro rfl
      exact other mine
    rw [lookup_insert_ne different]
    exact rel.foreign k other

theorem refuse (key : TemplateKey) (t : Template) : Restricts own (s.refuse key t) (u.refuse key t) :=
  { rel with }

theorem get (env : Env) (mine : own key.exporter key.domain) (ticks : u.tick = s.tick) :
    (u.get env key).1 = (s.get env key).1 ∧ Restricts own (s.get env key).2 (u.get env key).2 := by
  simp only [Tables.get, TemplateCache.get, rel.templates key mine, rel.ttl, ticks]
  cases held : s.templates.m.lookup key with
  | none => exact ⟨rfl, rel.ttl, rel.max, rel.templates, rel.foreign, rel.sampling, rel.sampled⟩
  | some record =>
    dsimp only
    by_cases expired : env.clock s.tick - record.added > s.templates.ttl
    · rw [if_pos expired, if_pos expired]
      refine ⟨rfl, rfl, rel.max, fun k here => ?_, fun k other => ?_, rel.sampling, rel.sampled⟩
      · by_cases same : k = key
        · rw [same, lookup_erase, lookup_erase]
        · rw [lookup_erase_ne same, lookup_erase_ne same]
          exact rel.templates k here
      · have different : k ≠ key := by
          rintro rfl
          exact other mine
        rw [lookup_erase_ne different]
        exact rel.foreign k other
    · rw [if_neg expired, if_neg expired]
      exact ⟨rfl, rel.ttl, rel.max, rel.templates, rel.foreign, rel.sampling, rel.sampled⟩

theorem rate (mine : own exporter domain) : u.rate exporter domain = s.rate exporter domain := by
  rw [Tables.rate, Tables.rate, rel.sampling exporter domain mine]

theorem setRate (exporter : Bytes) (domain rate : Nat) (clean : s.resets = false) :
    Restricts own (setRate exporter domain s rate) (setRate exporter domain u rate) := by
  have cleanU : u.resets = false := by
    simp only [resets, decide_eq_false_iff_not, not_lt] at clean ⊢
    exact (Maps.keys_length_le rel.sampled).trans clean
  unfold Tables.setRate
  rw [clean, cleanU]
  split
  · exact rel
  refine { rel with sampling := fun e dom here => ?_, sampled := fun key held => ?_ }
  · by_cases same : samplingKey e dom = samplingKey exporter domain
    · rw [same, lookup_insert, lookup_insert]
    · rw [lookup_insert_ne same, lookup_insert_ne same]
      exact rel.sampling e dom here
  · by_cases same : key = samplingKey exporter domain
    · rw [same, lookup_insert]
      exact nofun
    · rw [lookup_insert_ne same] at held ⊢
      exact rel.sampled key held

end

/-! Accesses that only the larger run makes. -/

section
variable (rel : Restricts own s u)
include rel

theorem put_other (env : Env) (foreign : ¬ own key.exporter key.domain)
    (t : Template) (clean : s.templates.evicts key t = false) : Restricts own (s.put env key t) u := by
  unfold Tables.put TemplateCache.put
  rw [clean]
  split
  · exact { rel with }
  refine { rel with templates := fun k here => ?_ }
  have elsewhere : k ≠ key := by
    rintro rfl
    exact foreign here
  rw [lookup_insert_ne elsewhere]
  exact rel.templates k here

theorem get_other (env : Env) (foreign : ¬ own key.exporter key.domain) : Restricts own (s.get env key).2 u := by
  simp only [Tables.get, TemplateCache.get]
  cases held : s.templates.m.lookup key with
  | none => exact { rel with }
  | some record =>
    dsimp only
    split
    · refine { rel with templates := fun k here => ?_ }
      have elsewhere : k ≠ key := by
        rintro rfl
        exact foreign here
      rw [lookup_erase_ne elsewhere]
      exact rel.templates k here
    · exact { rel with }

theorem setRate_other {rate : Nat} (foreign : ¬ own exporter domain)
    (positive : rate ≠ 0) (clean : s.resets = false) : Restricts own (Tables.setRate exporter domain s rate) u := by
  unfold Tables.setRate
  rw [if_neg positive, clean]
  refine { rel with sampling := fun e dom here => ?_, sampled := fun key held => ?_ }
  · have different : samplingKey e dom ≠ samplingKey exporter domain := by
      intro same
      obtain ⟨rfl, rfl⟩ := samplingKey_injective same
      exact foreign here
    rw [lookup_insert_ne different]
    exact rel.sampling e dom here
  · by_cases same : key = samplingKey exporter domain
    · rw [same, lookup_insert]
      exact nofun
    · rw [lookup_insert_ne same]
      exact rel.sampled key held

theorem step_other (foreign : ¬ own r.datagram.exporter r.packet.domain)
    (step : Step r s t) (clean : Clean t.log) : Restricts own t u := by
  cases step with
  | put id t =>
    have kept : s.templates.evicts (r.key id) t = false :=
      (clean _ (mem_append_right _ mem_cons_self)).1
    exact rel.put_other r.datagram.env foreign t kept
  | refuse id t => exact { rel with }
  | get id => exact rel.get_other r.datagram.env foreign
  | setRate rate =>
    by_cases zero : rate = 0
    · rw [Tables.setRate, if_pos zero]
      exact rel
    have kept : s.resets = false := by
      rw [Tables.setRate, if_neg zero] at clean
      exact (clean _ (mem_append_right _ mem_cons_self)).2
    exact rel.setRate_other foreign zero kept

end

end Restricts

variable {s : Tables}

theorem steps_log (reached : ReflTransGen (Step r) s t) : s.log <+: t.log := by
  induction reached with
  | refl => exact prefix_rfl
  | tail _ step ih => exact ih.trans step.log

theorem Clean.before (clean : Clean t.log) (reached : ReflTransGen (Step r) s t) : Clean s.log :=
  fun op mem => clean op ((steps_log reached).subset mem)

structure Together (own : Bytes → Nat → Prop) (s u : Tables) : Prop where
  rel : Restricts own s u
  ticks : u.tick = s.tick

namespace Together

variable {own : Bytes → Nat → Prop} {s u : Tables} {r : Reading} (mine : own r.datagram.exporter r.packet.domain)
include mine

section
variable (both : Together own s u)
include both

theorem putAll (records : List (Nat × Template)) (clean : Clean (s.putAll r records).log) :
    Together own (s.putAll r records) (u.putAll r records) := by
  induction records generalizing s u with
  | nil => exact both
  | cons record rest ih =>
    have here := clean.before (putAll_sends r (s.put r.datagram.env (r.key record.1) record.2) rest).steps
    have kept : s.templates.evicts (r.key record.1) record.2 = false :=
      (here _ (mem_append_right _ mem_cons_self)).1
    exact ih ⟨both.rel.put _ mine record.2 both.ticks kept, congrArg (· + 1) both.ticks⟩ clean

omit mine in
theorem refuseAll (records : List (Nat × Template)) :
    Together own (s.refuseAll r records) (u.refuseAll r records) := by
  induction records generalizing s u with
  | nil => exact both
  | cons record rest ih => exact ih ⟨both.rel.refuse _ _, both.ticks⟩

omit mine in
theorem setRates (rates : List Nat)
    (clean : Clean (rates.foldl (setRate r.datagram.exporter r.packet.domain) s).log) :
    Together own (rates.foldl (setRate r.datagram.exporter r.packet.domain) s)
      (rates.foldl (setRate r.datagram.exporter r.packet.domain) u) := by
  induction rates generalizing s u with
  | nil => exact both
  | cons rate rest ih =>
    have here := clean.before
      (setRates_sends r (setRate r.datagram.exporter r.packet.domain s rate) rest).steps
    refine ih ⟨?_, ?_⟩ clean
    · by_cases zero : rate = 0
      · rw [setRate, setRate, if_pos zero, if_pos zero]
        exact both.rel
      · rw [setRate, if_neg zero] at here
        exact both.rel.setRate _ _ _ (here _ (mem_append_right _ mem_cons_self)).2
    · unfold setRate
      split <;> exact both.ticks

theorem parseTemplates (taken sent : Reader UInt8 (Nat × Template)) (body : Bytes)
    (clean : Clean (s.parseTemplates r taken sent body).log) :
    Together own (s.parseTemplates r taken sent body) (u.parseTemplates r taken sent body) :=
  (both.putAll mine _ (clean.before (refuseAll_sends r _ _).steps)).refuseAll _

theorem decodeData (p : Dialect) (recs : List Record) (id : Nat) (body : Bytes)
    (clean : Clean (s.decodeData r p recs id body).1.log) :
    (u.decodeData r p recs id body).2 = (s.decodeData r p recs id body).2 ∧
      Together own (s.decodeData r p recs id body).1 (u.decodeData r p recs id body).1 := by
  obtain ⟨same, rel⟩ : (u.get r.datagram.env (r.key id)).1 = (s.get r.datagram.env (r.key id)).1 ∧ Restricts own _ _ :=
    both.rel.get r.datagram.env mine both.ticks
  have ticks : (u.get r.datagram.env (r.key id)).2.tick = (s.get r.datagram.env (r.key id)).2.tick :=
    congrArg (· + 1) both.ticks
  unfold Tables.decodeData at clean ⊢
  generalize s.get r.datagram.env (r.key id) = fetched at same rel ticks clean
  generalize u.get r.datagram.env (r.key id) = fetchedU at same rel ticks
  obtain ⟨found, s⟩ := fetched
  obtain ⟨foundU, u⟩ := fetchedU
  obtain rfl : foundU = found := same
  cases foundU with
  | none => exact ⟨rfl, rel, ticks⟩
  | some t =>
    dsimp only at rel clean ⊢
    rw [rel.rate mine]
    exact ⟨rfl, setRates ⟨rel, ticks⟩ _ clean⟩

omit mine in
theorem skipSets (p : Dialect) (sets : List (Nat × Bytes)) :
    Together own (s.skipSets r p sets) (u.skipSets r p sets) := by
  induction sets generalizing s u with
  | nil => exact both
  | cons set rest ih =>
    refine ih ?_
    dsimp only
    split
    · exact both.refuseAll _
    split
    · exact both.refuseAll _
    · exact both

theorem decodeSet (p : Dialect) (recs : List Record) (misses id : Nat) (body : Bytes)
    (clean : Clean (s.decodeSet r p recs misses id body).1.log) :
    (u.decodeSet r p recs misses id body).2 = (s.decodeSet r p recs misses id body).2 ∧
      Together own (s.decodeSet r p recs misses id body).1 (u.decodeSet r p recs misses id body).1 := by
  unfold Tables.decodeSet at clean ⊢
  split_ifs at clean ⊢
  · exact ⟨rfl, both.parseTemplates mine _ _ body clean⟩
  · exact ⟨rfl, both.parseTemplates mine _ _ body clean⟩
  · obtain ⟨same, next⟩ := both.decodeData mine p recs id body clean
    rw [same]
    exact ⟨rfl, next⟩
  · exact ⟨rfl, both⟩

theorem decodeSets (p : Dialect) (recs : List Record) (misses : Nat) (sets : List (Nat × Bytes))
    (clean : Clean (decodeSets r p s recs misses sets).1.log) :
    (decodeSets r p u recs misses sets).2 = (decodeSets r p s recs misses sets).2 ∧
      Together own (decodeSets r p s recs misses sets).1 (decodeSets r p u recs misses sets).1 := by
  induction sets generalizing s u recs misses with
  | nil => exact ⟨rfl, both⟩
  | cons set rest ih =>
    have alike := both.decodeSet mine p recs misses set.1 set.2
    rcases here : s.decodeSet r p recs misses set.1 set.2 with ⟨s', recs', misses', exceeded⟩
    rcases there : u.decodeSet r p recs misses set.1 set.2 with ⟨u', out⟩
    rw [here, there] at alike
    rw [decodeSets_cons r p here] at clean ⊢
    cases exceeded with
    | true =>
      obtain ⟨rfl, next⟩ := alike (clean.before (skipSets_sends r p s' rest).steps)
      rw [decodeSets_cons r p there]
      exact ⟨rfl, next.skipSets p rest⟩
    | false =>
      obtain ⟨rfl, next⟩ := alike (clean.before (decodeSets_sends r p s' _ _ rest).steps)
      rw [decodeSets_cons r p there]
      exact ih next _ _ clean

end

end Together

/-! Histories. -/

inductive TemplateProtocol where
  | netflow9 | ipfix
  deriving DecidableEq

namespace TemplateProtocol

def version : TemplateProtocol → Nat
  | netflow9 => 9
  | ipfix => 10

def other : TemplateProtocol → TemplateProtocol
  | netflow9 => .ipfix
  | ipfix => .netflow9

end TemplateProtocol

def Datagram.domain (d : Datagram) : Option Nat :=
  if d.pkt.length < 4 then none
  else if d.version = 9 then (nf9.header d.pkt).toOption.map (·.domain)
  else if d.version = 10 then (ipfix.header d.pkt).toOption.map (·.domain)
  else none

variable {d : Datagram}

theorem Datagram.domain_eq (long : ¬ d.pkt.length < 4)
    (version : p = nf9 ∧ d.version = 9 ∨ p = ipfix ∧ d.version = 10) (header : p.header d.pkt = .ok packet) :
    d.domain = some packet.domain := by
  unfold domain
  rw [if_neg long]
  obtain ⟨rfl, nine⟩ | ⟨rfl, ten⟩ := version
  · rw [if_pos nine, header]
    rfl
  · rw [if_neg (by omega), if_pos ten, header]
    rfl

def Datagram.kept (exporter : Bytes) (p : TemplateProtocol) (d : Datagram) : Bool :=
  d.exporter = exporter ∧ d.version ≠ p.other.version

def Owned (exporter : Bytes) (p : TemplateProtocol) (history : List Datagram) (e : Bytes) (domain : Nat) : Prop :=
  e = exporter ∧ ∃ d ∈ history, d.exporter = exporter ∧ d.version = p.version ∧ d.domain = some domain

/-- No observation domain of the exporter is used by both template protocols. -/
def Apart (exporter : Bytes) (p : TemplateProtocol) (history : List Datagram) : Prop :=
  ∀ d ∈ history, ∀ d' ∈ history, d.exporter = exporter ∧ d'.exporter = exporter ∧ d.version = p.version ∧
    d'.version = p.other.version ∧ d.domain ≠ none → d.domain ≠ d'.domain

instance (exporter : Bytes) (p : TemplateProtocol) (history : List Datagram) : Decidable (Apart exporter p history) := by
  unfold Apart
  infer_instance

variable {p : TemplateProtocol} {history : List Datagram}

theorem owned_kept {domain : Nat}
    (mem : d ∈ history) (kept : d.kept exporter p = true) (templated : d.version = 9 ∨ d.version = 10)
    (known : d.domain = some domain) : Owned exporter p history d.exporter domain := by
  simp only [Datagram.kept, decide_eq_true_eq] at kept
  refine ⟨kept.1, d, mem, kept.1, ?_, known⟩
  cases p with
  | netflow9 => exact templated.resolve_right kept.2
  | ipfix => exact templated.resolve_left kept.2

theorem not_owned_other {domain : Nat}
    (apart : Apart exporter p history) (mem : d ∈ history) (other : d.kept exporter p = false) (known : d.domain = some domain) :
    ¬ Owned exporter p history d.exporter domain := by
  rintro ⟨same, own, ownMem, ownExporter, ownVersion, ownDomain⟩
  simp only [kept, decide_eq_false_iff_not, not_and, not_not] at other
  exact apart own ownMem d mem ⟨ownExporter, same, ownVersion, other same, by simp [ownDomain]⟩ (ownDomain.trans known.symm)

section Unwinding

variable {others : Stateless} {exporter : Bytes} {p : TemplateProtocol} {history : List Datagram} {d : Datagram} {s u : Tables}

theorem Restricts.decode_other (rel : Restricts (Owned exporter p history) s u) (apart : Apart exporter p history)
    (mem : d ∈ history) (other : d.kept exporter p = false) (clean : Clean (decode others s d).1.log) :
    Restricts (Owned exporter p history) (decode others s d).1 u := by
  have zero : Restricts (Owned exporter p history) { s with tick := 0 } u :=
    { rel with }
  obtain ⟨out, unchanged⟩ | ⟨dialect, packet, version, long, header, decoded⟩ := decode_cases others d
  · rw [unchanged]
    exact zero
  rw [decoded, decodePacket_tables header] at clean ⊢
  have foreign := not_owned_other apart mem other (d.domain_eq long version header)
  have accesses t (reached : ReflTransGen (Step ⟨d, packet⟩) { s with tick := 0 } t) (clean : Clean t.log) :
      Restricts (Owned exporter p history) t u := by
    induction reached with
    | refl => exact zero
    | tail _ step ih => exact (ih (clean.before (.single step))).step_other foreign step clean
  exact accesses _ (decodeSets_sends ⟨d, packet⟩ dialect _ [] 0 _).steps clean

theorem Restricts.decode_own (rel : Restricts (Owned exporter p history) s u) (mem : d ∈ history)
    (kept : d.kept exporter p = true) (clean : Clean (decode others s d).1.log) :
    (decode others u d).2 = (decode others s d).2 ∧
      Restricts (Owned exporter p history) (decode others s d).1 (decode others u d).1 := by
  have zero : Together (Owned exporter p history) { s with tick := 0 } { u with tick := 0 } :=
    ⟨{ rel with }, rfl⟩
  obtain ⟨out, unchanged⟩ | ⟨dialect, packet, version, long, header, decoded⟩ := decode_cases others d
  · rw [unchanged, unchanged]
    exact ⟨rfl, zero.rel⟩
  have mine : Owned exporter p history d.exporter packet.domain :=
    owned_kept mem kept (version.imp And.right And.right) (d.domain_eq long version header)
  rw [decoded, decodePacket_tables header] at clean
  obtain ⟨same, after⟩ := zero.decodeSets mine dialect [] 0 _ clean
  rw [decoded, decoded]
  refine ⟨?_, ?_⟩
  · rw [decodePacket, decodePacket, header]
    dsimp only
    rw [same]
  · rw [decodePacket_tables header, decodePacket_tables header]
    exact after.rel

end Unwinding

/-- Below the cap of the cache and the bound of the sampling table, and where no
observation domain of the exporter is used by both template protocols: whatever
the interleaving, what is decoded from the exporter's datagrams is what is decoded
when those of all other exporters and of the other protocol are left out. -/
theorem exporter_protocol_isolated (others : Stateless) (templateTTL maxTemplates : Int) (history : List Datagram)
    (exporter : Bytes) (p : TemplateProtocol)
    (below : ∀ op ∈ (decodeAll others (newTables templateTTL maxTemplates) history).1.log, op.evicts = false)
    (unreset : ∀ op ∈ (decodeAll others (newTables templateTTL maxTemplates) history).1.log, op.resets = false)
    (apart : Apart exporter p history) :
    (decodeAll others (newTables templateTTL maxTemplates) history).2.filter (fun out => out.1.kept exporter p) =
      (decodeAll others (newTables templateTTL maxTemplates) (history.filter (Datagram.kept exporter p))).2 := by
  have clean : Clean (decodeAll others (newTables templateTTL maxTemplates) history).1.log :=
    fun op mem => ⟨below op mem, unreset op mem⟩
  -- the domains are those of the whole history, the runs go over a part of it
  have both part (inside : ∀ d ∈ part, d ∈ history)
      (clean : Clean (decodeAll others (newTables templateTTL maxTemplates) part).1.log) :
      Restricts (Owned exporter p history) (decodeAll others (newTables templateTTL maxTemplates) part).1
          (decodeAll others (newTables templateTTL maxTemplates) (part.filter (kept exporter p))).1 ∧
        (decodeAll others (newTables templateTTL maxTemplates) part).2.filter (fun out => out.1.kept exporter p) =
          (decodeAll others (newTables templateTTL maxTemplates) (part.filter (kept exporter p))).2 := by
    induction part using reverseRecOn with
    | nil => exact ⟨⟨rfl, rfl, fun _ _ => rfl, fun _ _ => rfl, fun _ _ _ => rfl, fun _ held => held⟩, rfl⟩
    | append_singleton earlier d ih =>
      rw [decodeAll_snoc] at clean ⊢
      have mem : d ∈ history := inside d (by simp)
      have before := fun op mem => clean op ((decode_log others _ d).subset mem)
      obtain ⟨rel, same⟩ := ih (fun x here => inside x (by simp [here])) before
      rw [filter_append, filter_append, filter_singleton, filter_singleton]
      cases whose : d.kept exporter p with
      | true =>
        obtain ⟨alike, next⟩ := rel.decode_own mem whose clean
        rw [cond_true, cond_true, decodeAll_snoc]
        exact ⟨next, by rw [same, alike]⟩
      | false =>
        rw [cond_false, cond_false, append_nil, append_nil]
        exact ⟨rel.decode_other apart mem whose clean, same⟩
  exact (both history (fun _ mem => mem) clean).2

def packetsTemplate : Bytes := [0, 0, 0, 12, 1, 0, 0, 1, 0, 2, 0, 4]

theorem exporter_protocol_isolated_domains :
    let history := [ipfixMessage [10] octetsTemplate, nf9Message [10] 2 packetsTemplate, nf9Message [11] 1 packetsTemplate,
      ipfixMessage [10] octetsData]
    (∀ op ∈ (decodeAll noStateless (newTables 0 0) history).1.log, op.evicts = false) ∧
      (∀ op ∈ (decodeAll noStateless (newTables 0 0) history).1.log, op.resets = false) ∧
      Apart [10] .ipfix history ∧
      (decodeAll noStateless (newTables 0 0) history).2.filter (fun out => out.1.kept [10] .ipfix) =
        (decodeAll noStateless (newTables 0 0) (history.filter (Datagram.kept [10] .ipfix))).2 :=
  ⟨by decide +kernel, by decide +kernel, by decide +kernel,
    exporter_protocol_isolated noStateless 0 0 [ipfixMessage [10] octetsTemplate, nf9Message [10] 2 packetsTemplate,
      nf9Message [11] 1 packetsTemplate, ipfixMessage [10] octetsData] [10] .ipfix (by decide +kernel) (by decide +kernel)
      (by decide +kernel)⟩

/-- In one domain the template of NetFlow v9 takes the place of the one of IPFIX,
and an IPFIX octet count is decoded as a packet count; and a rate that NetFlow v9
has announced is applied to it. -/
theorem protocols_collide :
    let options : Bytes := [0, 1, 0, 14, 1, 1, 0, 0, 0, 4, 0, 34, 0, 4]
    let rate : Bytes := [1, 1, 0, 8, 0, 0, 0, 100]
    let counts := fun history => (decodeAll noStateless (newTables 0 0) history).2.flatMap
      fun out => out.2.recs.map fun record => (record.protocol, record.bytes, record.packets, record.samplingRate)
    let layout := [ipfixMessage [10] octetsTemplate, nf9Message [10] 1 packetsTemplate, ipfixMessage [10] octetsData]
    let sampling := [nf9Message [10] 1 (options ++ rate), ipfixMessage [10] octetsTemplate, ipfixMessage [10] octetsData]
    counts layout = [(.ipfix, 0, 7, 0)] ∧ counts sampling = [(.ipfix, 7, 0, 100)] ∧
      counts (layout.filter (Datagram.kept [10] .ipfix)) = [(.ipfix, 7, 0, 0)] ∧
      counts (sampling.filter (Datagram.kept [10] .ipfix)) = [(.ipfix, 7, 0, 0)] := by
  decide +kernel

end Probectl.Flow
