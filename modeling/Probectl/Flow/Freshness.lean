import Probectl.Flow.Decode
import Probectl.Lib.Latest

/-! Which definition a data set is decoded with. -/
namespace Probectl.Flow

open Latest Relation List TemplateCache Datagram

/-! What one datagram does to the tables, access by access. -/

inductive Step (r : Reading) (s : Tables) : Tables → Prop
  | put (id : Nat) (t : Template) : Step r s (s.put r.datagram.env (r.key id) t)
  | refuse (id : Nat) (t : Template) : Step r s (s.refuse (r.key id) t)
  | get (id : Nat) : Step r s (s.get r.datagram.env (r.key id)).2
  | setRate (rate : Nat) : Step r s (Tables.setRate r.datagram.exporter r.packet.domain s rate)

/-! The template records among them. -/

def receiveWrite : TableOp → Option (TemplateKey × Template)
  | .receive key t _ _ _ => some (key, t)
  | _ => none

def Tables.received (s : Tables) : List (TemplateKey × Template) := s.log.filterMap receiveWrite

def Reading.sent (r : Reading) (p : Dialect) (set : Nat × Bytes) : List (TemplateKey × Template) :=
  if set.1 = p.templateSet then (p.received.all set.2).map fun record => (r.key record.1, record.2)
  else if set.1 = p.optionsSet then (p.optionsReceived.all set.2).map fun record => (r.key record.1, record.2)
  else []

/-- Accesses of a datagram that take it from `s` to `t`, with the template records noted on the way. -/
structure Sends (r : Reading) (s : Tables) (sent : List (TemplateKey × Template)) (t : Tables) : Prop where
  steps : ReflTransGen (Step r) s t
  received : t.received = s.received ++ sent

namespace Sends

variable {r : Reading} {s t u : Tables} {sent more : List (TemplateKey × Template)}

theorem refl : Sends r s [] s := ⟨.refl, (append_nil _).symm⟩

theorem trans (first : Sends r s sent t) (second : Sends r t more u) : Sends r s (sent ++ more) u :=
  ⟨first.steps.trans second.steps, by rw [second.received, first.received, append_assoc]⟩

end Sends

namespace Tables

variable (r : Reading)

theorem putAll_sends (s : Tables) (records : List (Nat × Template)) :
    Sends r s (records.map fun record => (r.key record.1, record.2)) (s.putAll r records) := by
  induction records generalizing s with
  | nil => exact .refl
  | cons record rest ih =>
    have one : Sends r s [(r.key record.1, record.2)] (s.put r.datagram.env (r.key record.1) record.2) :=
      ⟨.single (.put record.1 record.2), by simp [received, put, receiveWrite]⟩
    exact one.trans (ih _)

theorem refuseAll_sends (s : Tables) (records : List (Nat × Template)) :
    Sends r s (records.map fun record => (r.key record.1, record.2)) (s.refuseAll r records) := by
  induction records generalizing s with
  | nil => exact .refl
  | cons record rest ih =>
    have one : Sends r s [(r.key record.1, record.2)] (s.refuse (r.key record.1) record.2) :=
      ⟨.single (.refuse record.1 record.2), by simp [received, refuse, receiveWrite]⟩
    exact one.trans (ih _)

theorem setRates_sends (s : Tables) (rates : List Nat) :
    Sends r s [] (rates.foldl (setRate r.datagram.exporter r.packet.domain) s) := by
  induction rates generalizing s with
  | nil => exact .refl
  | cons rate rest ih =>
    have one : Sends r s [] (setRate r.datagram.exporter r.packet.domain s rate) := by
      refine ⟨.single (.setRate rate), ?_⟩
      unfold setRate
      split <;> simp [received, receiveWrite]
    exact one.trans (ih _)

theorem parseTemplates_sends (s : Tables) (same : taken = sent.only acceptable)
    (body : Bytes) :
    Sends r s ((sent.all body).map fun record => (r.key record.1, record.2)) (s.parseTemplates r taken sent body) := by
  have front : taken.all body <+: sent.all body := by
    rw [same, Reader.all_only]
    exact takeWhile_prefix acceptable
  obtain ⟨rest, whole⟩ := front
  rw [parseTemplates, ← whole, drop_left, map_append]
  exact (putAll_sends r s _).trans (refuseAll_sends r _ _)

theorem decodeData_sends (p : Dialect) (s : Tables) (recs : List Record) (id : Nat) (body : Bytes) :
    Sends r s [] (s.decodeData r p recs id body).1 := by
  have fetched : Sends r s [] (s.get r.datagram.env (r.key id)).2 :=
    ⟨.single (.get id), by simp [received, get, receiveWrite]⟩
  unfold decodeData
  split
  · rename_i next missing
    rw [missing] at fetched
    exact fetched
  · rename_i t next found
    rw [found] at fetched
    exact fetched.trans (setRates_sends r next _)

theorem skipSets_sends (p : Dialect) (s : Tables) (sets : List (Nat × Bytes)) :
    Sends r s (sets.flatMap (r.sent p)) (s.skipSets r p sets) := by
  induction sets generalizing s with
  | nil => exact .refl
  | cons set rest ih =>
    rw [skipSets, foldl_cons]
    refine .trans ?_ (ih _)
    unfold Reading.sent
    split
    · exact refuseAll_sends r s _
    split
    · exact refuseAll_sends r s _
    · exact .refl

theorem decodeSet_sends (p : Dialect) (s : Tables) (recs : List Record) (misses id : Nat) (body : Bytes) :
    Sends r s (r.sent p (id, body)) (s.decodeSet r p recs misses id body).1 := by
  unfold decodeSet Reading.sent
  split
  · exact parseTemplates_sends r s p.templates_eq body
  split
  · exact parseTemplates_sends r s p.optionsTemplates_eq body
  split
  · exact decodeData_sends r p s recs id body
  · exact .refl

theorem decodeSets_sends (p : Dialect) (s : Tables) (recs : List Record) (misses : Nat) (sets : List (Nat × Bytes)) :
    Sends r s (sets.flatMap (r.sent p)) (decodeSets r p s recs misses sets).1 := by
  induction sets generalizing s recs misses with
  | nil => exact .refl
  | cons set rest ih =>
    have first := decodeSet_sends r p s recs misses set.1 set.2
    rcases set : s.decodeSet r p recs misses set.1 set.2 with ⟨s', recs', misses', exceeded⟩
    rw [set] at first
    rw [decodeSets_cons r p set]
    refine first.trans ?_
    split
    · exact skipSets_sends r p s' rest
    · exact ih s' recs' misses'

end Tables

theorem decode_cases (others : Stateless) (d : Datagram) :
    (∃ out, ∀ s, decode others s d = ({ s with tick := 0 }, out)) ∨
      ∃ p packet, (p = nf9 ∧ d.version = 9 ∨ p = ipfix ∧ d.version = 10) ∧ ¬ d.pkt.length < 4 ∧ p.header d.pkt = .ok packet ∧
        ∀ s, decode others s d = decodePacket p { s with tick := 0 } d := by
  unfold decode
  split
  · exact .inl ⟨_, fun s => rfl⟩
  rename_i long
  split
  · exact .inl ⟨_, fun s => rfl⟩
  split
  · rename_i nine
    cases header : nf9.header d.pkt with
    | error fault => exact .inl ⟨_, fun s => by rw [decodePacket, header]⟩
    | ok packet => exact .inr ⟨nf9, packet, .inl ⟨rfl, nine⟩, long, header, fun s => rfl⟩
  split
  · rename_i ten
    cases header : ipfix.header d.pkt with
    | error fault => exact .inl ⟨_, fun s => by rw [decodePacket, header]⟩
    | ok packet => exact .inr ⟨ipfix, packet, .inr ⟨rfl, ten⟩, long, header, fun s => rfl⟩
  split <;> exact .inl ⟨_, fun s => rfl⟩

theorem decodePacket_tables (header : p.header d.pkt = .ok packet) :
    (decodePacket p s d).1 = (Tables.decodeSets ⟨d, packet⟩ p s [] 0 (packet.framed p.protocol).1).1 := by
  rw [decodePacket, header]

theorem decode_keeps {good : Tables → Prop} (ticks : ∀ s n, good s → good { s with tick := n })
    (steps : ∀ r s t, good s → Step r s t → good t) others d {s : Tables} (before : good s) :
    good (decode others s d).1 := by
  have zero := ticks s 0 before
  obtain ⟨out, unchanged⟩ | ⟨p, packet, -, -, header, decoded⟩ := decode_cases others d
  · rw [unchanged]
    exact zero
  rw [decoded, decodePacket_tables header]
  have accesses t (reached : ReflTransGen (Step ⟨d, packet⟩) { s with tick := 0 } t) : good t := by
    induction reached with
    | refl => exact zero
    | tail _ step ih => exact steps _ _ _ ih step
  exact accesses _ (Tables.decodeSets_sends ⟨d, packet⟩ p _ [] 0 _).steps

theorem decodeAll_snoc (others : Stateless) (s : Tables) (history : List Datagram) (d : Datagram) :
    decodeAll others s (history ++ [d]) =
      ((decode others (decodeAll others s history).1 d).1,
        (decodeAll others s history).2 ++ [(d, (decode others (decodeAll others s history).1 d).2)]) := by
  rw [decodeAll, foldl_append]
  rfl

theorem decodeAll_keeps {good : Tables → Prop} (ticks : ∀ s n, good s → good { s with tick := n })
    (steps : ∀ r s t, good s → Step r s t → good t) others history {s : Tables}
    (before : good s) : good (decodeAll others s history).1 := by
  induction history using reverseRecOn with
  | nil => exact before
  | append_singleton earlier d ih =>
    rw [decodeAll_snoc]
    exact decode_keeps ticks steps others d ih

/-! The template records of a history. -/

def Datagram.sentAs (d : Datagram) (p : Dialect) : List (TemplateKey × Template) :=
  match p.header d.pkt with
  | .error _ => []
  | .ok packet => (packet.framed p.protocol).1.flatMap (Reading.sent ⟨d, packet⟩ p)

def Datagram.sent (d : Datagram) : List (TemplateKey × Template) :=
  if d.pkt.length < 4 then []
  else if d.version = 9 then d.sentAs nf9
  else if d.version = 10 then d.sentAs ipfix
  else []

theorem decode_received (others : Stateless) (s : Tables) (d : Datagram) :
    (decode others s d).1.received = s.received ++ d.sent := by
  have packet p :
      (decodePacket p { s with tick := 0 } d).1.received = s.received ++ d.sentAs p := by
    unfold sentAs
    cases header : p.header d.pkt with
    | error fault =>
      rw [decodePacket, header]
      exact (append_nil _).symm
    | ok packet =>
      rw [decodePacket_tables header]
      exact (Tables.decodeSets_sends ⟨d, packet⟩ p _ [] 0 _).received
  unfold decode sent
  split
  · exact (append_nil _).symm
  split
  · rw [if_neg (by omega), if_neg (by omega)]
    exact (append_nil _).symm
  split
  · exact packet nf9
  split
  · exact packet ipfix
  split <;> exact (append_nil _).symm

theorem decodeAll_received (others : Stateless) (s : Tables) (history : List Datagram) :
    (decodeAll others s history).1.received = s.received ++ history.flatMap sent := by
  induction history using reverseRecOn with
  | nil => simp [decodeAll]
  | append_singleton earlier d ih =>
    rw [decodeAll_snoc, decode_received, ih]
    simp

/-! Freshness. -/

/-- A refused record is harmless where the cache has nothing under its key, or the
same definition. -/
def TableOp.Harmless : TableOp → Prop
  | .receive _ t false held _ => held = none ∨ held = some t
  | _ => True

instance (op : TableOp) : Decidable op.Harmless := by
  unfold TableOp.Harmless
  split <;> infer_instance

theorem latest_received (log : List TableOp) (key : TemplateKey) :
    latest receiveWrite log key = latest some (log.filterMap receiveWrite) key := by
  induction log using reverseRecOn with
  | nil => rfl
  | append_singleton log op ih =>
    rw [filterMap_append, latest_snoc, ih]
    cases written : receiveWrite op with
    | none => simp [Latest.put, written]
    | some record => simp [latest_snoc, Latest.put, written]

/-- The cache holds nothing but latest definitions. -/
structure Fresh (s : Tables) : Prop where
  holds : ∀ key record, s.templates.m.lookup key = some record → latest receiveWrite s.log key = some record.template

namespace Fresh

variable {s : Tables}

/-- A record that is not stored, and harmless. -/
theorem unstored (fresh : Fresh s)
    (written : receiveWrite op = some (key, t)) (harmless : s.held key = none ∨ s.held key = some t)
    (kept : s.templates.m.lookup k = some record) : latest receiveWrite (s.log ++ [op]) k = some record.template := by
  by_cases same : key = k
  · subst same
    rw [latest_written written, ← harmless.resolve_left (by simp [Tables.held, kept]), Tables.held, kept, Option.map_some]
  · rw [latest_other written same]
    exact fresh.holds k record kept

theorem put (fresh : Fresh s) (env : Env) (key : TemplateKey) (t : Template)
    (harmless : TableOp.Harmless (.receive key t (storable t) (s.held key) (s.templates.evicts key t))) :
    Fresh (s.put env key t) := by
  have written : receiveWrite (.receive key t (storable t) (s.held key) (s.templates.evicts key t)) =
      some (key, t) := rfl
  refine ⟨fun k record held => ?_⟩
  obtain ⟨-, rfl, rfl⟩ | ⟨other, kept⟩ := put_lookup held
  · exact latest_written written s.log
  cases stored : storable t with
  | true => exact (latest_other written (Ne.symm (other stored)) _).trans (fresh.holds k record kept)
  | false =>
    rw [stored] at harmless
    exact fresh.unstored written harmless kept

theorem refuse (fresh : Fresh s) (key : TemplateKey) (t : Template)
    (harmless : TableOp.Harmless (.receive key t false (s.held key) false)) : Fresh (s.refuse key t) :=
  ⟨fun _ _ held => fresh.unstored rfl harmless held⟩

theorem get (fresh : Fresh s) (env : Env) (key : TemplateKey) : Fresh (s.get env key).2 := by
  refine ⟨fun k record held => ?_⟩
  rw [show (s.get env key).2.log = s.log ++ [_] from rfl, latest_silent rfl]
  exact fresh.holds k record (get_lookup held)

theorem fetched (fresh : Fresh s) {env : Env} {key : TemplateKey} {t : Template}
    (found : (s.get env key).1 = some t) : latest some s.received key = some t := by
  obtain ⟨added, held⟩ := get_some found
  exact (latest_received s.log key).symm.trans (fresh.holds key _ held)

theorem setRate (fresh : Fresh s) (exporter : Bytes) (domain rate : Nat) : Fresh (Tables.setRate exporter domain s rate) := by
  unfold Tables.setRate
  split
  · exact fresh
  refine ⟨fun k record held => ?_⟩
  rw [latest_silent rfl]
  exact fresh.holds k record held

end Fresh

theorem Step.log (step : Step r s t) : s.log <+: t.log := by
  cases step with
  | put id t | refuse id t | get id => exact prefix_append _ _
  | setRate rate =>
    unfold Tables.setRate
    split
    · exact prefix_rfl
    · exact prefix_append _ _

theorem decode_log (others : Stateless) (s : Tables) (d : Datagram) : s.log <+: (decode others s d).1.log :=
  @decode_keeps (fun t => s.log <+: t.log) (fun _ _ here => here) (fun _ _ _ here step => here.trans step.log) others d s
    prefix_rfl

theorem Step.fresh (step : Step r s t) (fresh : (∀ op ∈ s.log, op.Harmless) → Fresh s)
    (harmless : ∀ op ∈ t.log, op.Harmless) : Fresh t := by
  have before := fresh fun op mem => harmless op (step.log.subset mem)
  cases step with
  | put id t => exact before.put _ _ t (harmless _ (by simp [Tables.put]))
  | refuse id t => exact before.refuse _ t (harmless _ (by simp [Tables.refuse]))
  | get id => exact before.get _ _
  | setRate rate => exact before.setRate _ _ rate

theorem Sends.log {r : Reading} {s t : Tables} {sent : List (TemplateKey × Template)} (sends : Sends r s sent t) :
    s.log <+: t.log := by
  obtain ⟨steps, -⟩ := sends
  induction steps with
  | refl => exact prefix_rfl
  | tail _ step ih => exact ih.trans step.log

theorem Sends.fresh {r : Reading} {s t : Tables} {sent : List (TemplateKey × Template)} (sends : Sends r s sent t)
    (fresh : Fresh s) : (∀ op ∈ t.log, op.Harmless) → Fresh t := by
  obtain ⟨steps, -⟩ := sends
  induction steps with
  | refl => exact fun _ => fresh
  | tail _ step ih => exact step.fresh ih

/-! What the sets of a packet give. -/

def Dialect.isData (p : Dialect) (id : Nat) : Bool := id ≠ p.templateSet ∧ id ≠ p.optionsSet ∧ 256 ≤ id

/-- The records and the misses of a packet, `received` being the template records in front of
its sets: a data set is counted as a miss or read with the definition received last. With one
of variable length NetFlow v9 reads nothing, and counts nothing. -/
def Decodes (r : Reading) (p : Dialect) :
    List (TemplateKey × Template) → List Record × Nat → List (Nat × Bytes) → List Record × Nat → Prop
  | _, out, [], final => final = out
  | received, (recs, misses), (id, body) :: rest, final =>
    if p.isData id then
      Decodes r p received (recs, misses + 1) rest final ∨
        ∃ t, latest some received (r.key id) = some t ∧
          if p.protocol = .netflow9 ∧ t.isVariable then Decodes r p received (recs, misses) rest final
          else ∃ rate, let walk := p.walk (r.context t) rate recs body
            if maxRecordsPerPacket < walk.rows then final = (walk.recs, misses)
            else Decodes r p received (walk.recs, misses) rest final
    else Decodes r p (received ++ r.sent p (id, body)) (recs, misses) rest final

theorem nf9Walk_variable {ctx : DataContext} (variable_ : ctx.template.isVariable = true) (rate : Nat)
    (recs : List Record) (set : Bytes) : nf9Walk ctx rate recs set = ⟨recs, [], 0⟩ := by
  refine Loop.run_exit (if_pos (.inl ?_))
  rw [Template.fixedWidth, variable_]
  rfl

section Packets
variable {p : Dialect} (known : p = nf9 ∨ p = ipfix)
include known

theorem decodeSets_reads (r : Reading) (sets : List (Nat × Bytes)) {u : Tables} {recs : List Record} {misses : Nat}
    (fresh : Fresh u) (harmless : ∀ op ∈ (Tables.decodeSets r p u recs misses sets).1.log, op.Harmless) :
    Decodes r p u.received (recs, misses) sets
      ((Tables.decodeSets r p u recs misses sets).2.recs, (Tables.decodeSets r p u recs misses sets).2.misses) := by
  induction sets generalizing u recs misses with
  | nil => rfl
  | cons set rest ih =>
    have sends := Tables.decodeSet_sends r p u recs misses set.1 set.2
    rcases one : u.decodeSet r p recs misses set.1 set.2 with ⟨u', recs', misses', exceeded⟩
    rw [one] at sends
    have whole := Tables.decodeSets_cons r p one rest
    -- What the set leaves is fresh, since the rest only adds to its log.
    have next (going : exceeded = false) : Decodes r p (u.received ++ r.sent p set) (recs', misses') rest
        ((Tables.decodeSets r p u recs misses (set :: rest)).2.recs,
          (Tables.decodeSets r p u recs misses (set :: rest)).2.misses) := by
      rw [going] at whole
      rw [whole] at harmless ⊢
      have grows := (Tables.decodeSets_sends r p u' recs' misses' rest).log
      rw [← show u'.received = _ from sends.received]
      exact ih (sends.fresh fresh fun op mem => harmless op (grows.subset mem)) harmless
    unfold Decodes
    by_cases data : p.isData set.1 = true
    · rw [if_pos data]
      simp only [Dialect.isData, decide_eq_true_eq] at data
      have silent : r.sent p set = [] := by rw [Reading.sent, if_neg data.1, if_neg data.2.1]
      rw [silent, append_nil] at next
      rw [Tables.decodeSet, if_neg data.1, if_neg data.2.1, if_pos data.2.2, Tables.decodeData] at one
      rcases got : u.get r.datagram.env (r.key set.1) with ⟨_ | t, v⟩
      · rw [got] at one
        cases one
        exact .inl (next rfl)
      refine .inr ⟨t, fresh.fetched (congrArg Prod.fst got), ?_⟩
      rw [got] at one
      split
      · rename_i unread
        obtain rfl : p = nf9 := known.resolve_right fun ten => by simp [ten, ipfix] at unread
        have none := @nf9Walk_variable (r.context t) unread.2
        simp only [nf9, none] at one
        cases one
        exact next rfl
      · cases one
        refine ⟨v.rate r.datagram.exporter r.packet.domain, ?_⟩
        dsimp only
        split
        · rename_i many
          rw [whole, if_pos (decide_eq_true many)]
          rfl
        · rename_i few
          exact next (decide_eq_false few)
    · rw [if_neg data]
      simp only [Dialect.isData, decide_eq_true_eq] at data
      unfold Tables.decodeSet at one
      split_ifs at one with own options high
      · cases one
        exact next rfl
      · cases one
        exact next rfl
      · exact absurd ⟨own, options, high⟩ data
      · cases one
        exact next rfl

theorem decode_reads (others : Stateless) {s : Tables} {d : Datagram} {packet : Packet} (header : p.header d.pkt = .ok packet)
    (fresh : Fresh s) (harmless : ∀ op ∈ (decode others s d).1.log, op.Harmless) :
    Decodes ⟨d, packet⟩ p s.received ([], 0) (packet.framed p.protocol).1
      ((decode others s d).2.recs, (decode others s d).2.misses) := by
  have here : decode others s d = decodePacket p { s with tick := 0 } d := by
    obtain rfl | rfl := known
    · obtain ⟨long, version, -⟩ : ¬ d.pkt.length < nf9HeaderLen ∧ d.version = 9 ∧ True := by
        simp only [nf9, nf9Header] at header
        split_ifs at header with short other
        exact ⟨short, not_not.mp other, trivial⟩
      unfold nf9HeaderLen at long
      rw [decode, if_neg (by omega), if_neg (by omega), if_pos version]
    · obtain ⟨long, version, -⟩ : ¬ d.pkt.length < ipfixHeaderLen ∧ d.version = 10 ∧ True := by
        simp only [ipfix, ipfixHeader] at header
        split_ifs at header with short other
        exact ⟨short, not_not.mp other, trivial⟩
      unfold ipfixHeaderLen at long
      rw [decode, if_neg (by omega), if_neg (by omega), if_neg (by omega), if_pos version]
  rw [here, decodePacket, header] at harmless ⊢
  dsimp only at harmless ⊢
  have zero : Fresh { s with tick := 0 } := ⟨fresh.holds⟩
  exact decodeSets_reads known ⟨d, packet⟩ _ zero harmless

end Packets

theorem decodeAll_length (others : Stateless) (s : Tables) (history : List Datagram) :
    (decodeAll others s history).2.length = history.length := by
  induction history using reverseRecOn with
  | nil => rfl
  | append_singleton earlier d ih => simp [decodeAll_snoc, ih]

/-- For every history of datagrams of any exporters: the tables have noted every
template record sent, in its order, and if no record was refused while the cache
held another definition of its template, the records and the misses of every
datagram are those that the definitions received last give. -/
theorem templates_fresh (others : Stateless) (templateTTL maxTemplates : Int) (history : List Datagram)
    (harmless : ∀ op ∈ (decodeAll others (newTables templateTTL maxTemplates) history).1.log, op.Harmless) :
    (decodeAll others (newTables templateTTL maxTemplates) history).1.received = history.flatMap Datagram.sent ∧
      ∀ (i : Nat) (d : Datagram) (out : Decoded),
        (decodeAll others (newTables templateTTL maxTemplates) history).2[i]? = some (d, out) →
        ∀ (p : Dialect) (packet : Packet), p = nf9 ∨ p = ipfix → p.header d.pkt = .ok packet →
          Decodes ⟨d, packet⟩ p ((history.take i).flatMap Datagram.sent) ([], 0) (packet.framed p.protocol).1
            (out.recs, out.misses) := by
  have start : Fresh (newTables templateTTL maxTemplates) := by
    refine ⟨fun key record held => ?_⟩
    cases held
  have fresh (earlier : List Datagram) := @decodeAll_keeps (fun s => (∀ op ∈ s.log, op.Harmless) → Fresh s)
    (fun s n here clean => ⟨(here clean).holds⟩) (fun r s t here step => step.fresh here) others earlier _ (fun _ => start)
  refine ⟨decodeAll_received others _ history, ?_⟩
  induction history using reverseRecOn with
  | nil =>
    intro i d out listed
    cases listed
  | append_singleton earlier last ih =>
    intro i d out listed p packet known header
    rw [decodeAll_snoc] at harmless listed
    have grows : (decodeAll others (newTables templateTTL maxTemplates) earlier).1.log <+:
        (decode others (decodeAll others (newTables templateTTL maxTemplates) earlier).1 last).1.log :=
      decode_log others _ last
    have clean op mem := harmless op (grows.subset mem)
    have size := decodeAll_length others (newTables templateTTL maxTemplates) earlier
    rcases Nat.lt_or_ge i earlier.length with before | behind
    · rw [getElem?_append_left (size ▸ before)] at listed
      rw [take_append_of_le_length before.le]
      exact ih clean i d out listed p packet known header
    · rw [getElem?_append_right (size ▸ behind), size] at listed
      obtain ⟨rfl, at_end⟩ : d = last ∧ i - earlier.length = 0 := by
        cases at_end : i - earlier.length with
        | zero =>
          rw [at_end] at listed
          exact ⟨(Prod.mk.inj (Option.some.inj listed)).1.symm, rfl⟩
        | succ n => simp [at_end] at listed
      obtain rfl : i = earlier.length := by omega
      rw [at_end] at listed
      obtain ⟨-, rfl⟩ := Prod.mk.inj (Option.some.inj listed)
      have sent : (decodeAll others (newTables templateTTL maxTemplates) earlier).1.received = earlier.flatMap Datagram.sent :=
        decodeAll_received others _ earlier
      rw [take_left, ← sent]
      exact decode_reads known others header (fresh earlier clean) harmless

def stillEnv : Env := ⟨fun _ => 0, fun _ entries => entries, fun _ _ => .refl _⟩

def noStateless : Stateless := ⟨fun _ _ _ => ([], none), fun _ _ _ => ([], none)⟩

def ipfixMessage (exporter : Bytes) (sets : Bytes) : Datagram :=
  ⟨exporter, [0, 10, 0, UInt8.ofNat (16 + sets.length), 0, 0, 0, 1, 0, 0, 0, 0, 0, 0, 0, 1] ++ sets, 0, stillEnv⟩

def octetsTemplate : Bytes := [0, 2, 0, 12, 1, 0, 0, 1, 0, 1, 0, 4]

def octetsData : Bytes := [1, 0, 0, 8, 0, 0, 0, 7]

/-- A template of NetFlow v9 with a field of variable length, and a data set for it. -/
def variableSets : Bytes := [0, 0, 0, 12, 1, 1, 0, 1, 0, 1, 255, 255, 1, 1, 0, 8, 0, 0, 0, 7]

def nf9Message (exporter : Bytes) (domain : UInt8) (sets : Bytes) : Datagram :=
  ⟨exporter, [0, 9, 0, 1, 0, 0, 0, 0, 0, 0, 0, 1, 0, 0, 0, 0, 0, 0, 0, domain] ++ sets, 0, stillEnv⟩

theorem templates_fresh_defined :
    let history := [ipfixMessage [10] octetsTemplate, ipfixMessage [10] octetsData, nf9Message [10] 1 variableSets]
    (∀ op ∈ (decodeAll noStateless (newTables 0 0) history).1.log, op.Harmless) ∧
      (decodeAll noStateless (newTables 0 0) history).2.map (fun out => (out.2.recs.map (·.bytes), out.2.misses)) =
        [([], 0), ([7], 0), ([], 0)] ∧
      ∃ d packet recs misses, history[1]? = some d ∧ ipfix.header d.pkt = .ok packet ∧ recs.map Record.bytes = [7] ∧
        Decodes ⟨d, packet⟩ ipfix (Datagram.sent (ipfixMessage [10] octetsTemplate)) ([], 0)
          (packet.framed .ipfix).1 (recs, misses) := by
  have harmless : ∀ op ∈ (decodeAll noStateless (newTables 0 0)
      [ipfixMessage [10] octetsTemplate, ipfixMessage [10] octetsData, nf9Message [10] 1 variableSets]).1.log, op.Harmless := by
    decide +kernel
  have fresh := (templates_fresh noStateless 0 0 _ harmless).2 1 _ _ rfl ipfix _ (.inr rfl) rfl
  refine ⟨harmless, by decide +kernel, _, _, _, _, rfl, rfl, ?_, fresh⟩
  decide +kernel

/-- A template is defined and withdrawn, and the data set behind the withdrawal is
decoded with the withdrawn definition; so is the one behind a redefinition that
has no width. -/
theorem withdrawn_template_used :
    let withdrawal : Bytes := [0, 2, 0, 8, 1, 0, 0, 0]
    let empty : Bytes := [0, 2, 0, 12, 1, 0, 0, 1, 0, 1, 0, 0]
    let defined : Template := ⟨[⟨1, 4, 0⟩], false, 0⟩
    let run := fun redefinition =>
      decodeAll noStateless (newTables 0 0)
        [ipfixMessage [10] octetsTemplate, ipfixMessage [10] redefinition, ipfixMessage [10] octetsData]
    (∀ redefinition ∈ [withdrawal, empty],
      ((run redefinition).1.log.getLast? = some (.fetch ⟨[10], 1, 256⟩ (some defined)) ∧
        latest receiveWrite (run redefinition).1.log ⟨[10], 1, 256⟩ ≠ some defined ∧
        (run redefinition).2.map (fun out => (out.2.recs.map (·.bytes), out.2.misses)) = [([], 0), ([], 0), ([7], 0)])) := by
  decide +kernel

end Probectl.Flow
