import Probectl.Auth.Sessions
import Probectl.Lib.Run

/-! What every transaction of a manager keeps: a session has one locator, a
rotation moves it, a replacement leaves it behind as a tombstone. -/
namespace Probectl.Auth

open List Run Db Manager Hash List.Subset

variable {token : Token} {t : System} {s : System}

namespace System

def issued (s : System) : List Token := s.created.map Prod.fst ++ s.rotations.map Prod.snd

def Descends (s : System) : Token → Token → Prop := Relation.ReflTransGen fun old new => (old, new) ∈ s.rotations

theorem issued_mint (s : System) (db : Db) (r : Row) : (s.mint db r).issued.Perm (r.hash.token :: s.issued) := by
  have split : (s.mint db r).issued = s.created.map Prod.fst ++ r.hash.token :: s.rotations.map Prod.snd := by
    simp [mint, present, issued]
  rw [split]
  exact perm_middle

theorem issued_rotated (s : System) (db : Db) (old new : Token) :
    (s.rotated db old new).issued.Perm (new :: s.issued) := by
  have split : (s.rotated db old new).issued = s.issued ++ [new] := by
    simp [rotated, present, issued]
  rw [split]
  exact perm_append_singleton new s.issued

theorem line_grow (created : s.created ⊆ t.created) (rotations : s.rotations ⊆ t.rotations)
    {who : Identity} (line : ∃ u, (u, who) ∈ s.created ∧ s.Descends u token) :
    ∃ u, (u, who) ∈ t.created ∧ t.Descends u token := by
  obtain ⟨u, made, descends⟩ := line
  exact ⟨u, created made, Relation.ReflTransGen.mono (fun _ _ pair => rotations pair) _ _ descends⟩

end System

def Quiet (locators : List Locator) (h : Hash) : Prop := ∀ l ∈ locators, l.hash = h → l.active = false

/-- What a call has learnt. A `Revoke` that went on to the legacy hash has ended
the keyed one, and a tenant it located is the tenant of that hash for good. -/
def CallInv (s : System) : Call → Prop
  | .rotateLegacy old _ _ => old ∈ s.seen
  | .resolve token hash located stale =>
    token ∈ s.seen ∧ hash.token = token ∧ (stale = true → token ∈ s.spent ∧ located = none)
  | .revoke token hash located =>
    token ∈ s.seen ∧ hash.token = token ∧ (hash = .legacy token → Quiet s.db.locators (.keyed token)) ∧
      ∀ tenant, located = some tenant → ∀ l ∈ s.db.locators, l.hash = hash → l.tenantID = tenant

structure Inv (m : Manager) (s : System) : Prop where
  blank : [] ∈ s.seen ∧ [] ∉ s.issued
  issued_seen : ∀ t ∈ s.issued, t ∈ s.seen
  spent_seen : ∀ t ∈ s.spent, t ∈ s.seen
  replaced_seen : ∀ p ∈ s.replacements, p.1 ∈ s.seen
  rotated_issued : ∀ p ∈ s.rotations, p.1 ∈ s.issued
  issued_nodup : s.issued.Nodup
  rotated_nodup : (s.rotations.map Prod.fst).Nodup
  owned : ∀ l ∈ s.db.locators, l.hash.token ∈ s.issued
  unique : (s.db.locators.map fun l => l.hash.token).Nodup
  hashed : m.keyed = false → ∀ l ∈ s.db.locators, l.hash = .legacy l.hash.token
  moved : ∀ p ∈ s.rotations, ∀ l ∈ s.db.locators, l.hash.token ≠ p.1
  placed : ∀ t ∈ s.issued, (∃ l ∈ s.db.locators, l.hash.token = t) ∨ t ∈ s.rotations.map Prod.fst
  ended : ∀ t ∈ s.spent, ∀ l ∈ s.db.locators, l.hash.token = t → l.active = false
  tombstone : ∀ p ∈ s.replacements, p.1 ∈ s.issued →
    (∃ l ∈ s.db.locators, l.hash.token = p.1 ∧ l.replaced = true) ∨ p.1 ∈ s.rotations.map Prod.fst
  replaced_once : ∀ t ∈ s.issued, t ∉ s.rotations.map Prod.fst → (s.replacements.map Prod.fst).count t ≤ 1
  calls : ∀ c ∈ s.calls, CallInv s c
  lineage : ∀ r ∈ s.db.sessions, ∃ t, (t, r.identity) ∈ s.created ∧ s.Descends t r.hash.token
  answered : ∀ r ∈ s.resolved, r.stale = false ∧ ∃ t, (t, r.identity) ∈ s.created ∧ s.Descends t r.token

theorem inv_initial (m : Manager) : Inv m {} := by
  constructor <;> simp [System.issued]

/-- A locator of a token seen before was there before, and if it is active it was. -/
def Evolves (seen : List Token) (old new : List Locator) : Prop :=
  ∀ l ∈ new, l.hash.token ∈ seen →
    ∃ o ∈ old, o.hash = l.hash ∧ o.tenantID = l.tenantID ∧ (l.active = true → o.active = true)

theorem Evolves.refl (seen : List Token) (locators : List Locator) : Evolves seen locators locators :=
  fun l mem _ => ⟨l, mem, rfl, rfl, id⟩

variable {l : Locator} {new : List Locator}

theorem Evolves.inactive {seen : List Token} {old : List Locator} (evolves : Evolves seen old new)
    (mem : l ∈ new) (seen : l.hash.token ∈ seen) (quiet : ∀ o ∈ old, o.hash = l.hash → o.active = false) :
    l.active = false := by
  obtain ⟨o, before, hash, -, active⟩ := evolves l mem seen
  have ended : o.active = false := quiet o before hash
  cases still : l.active with
  | false => rfl
  | true => exact absurd (active still) (by simp [ended])

variable {c : Call}

theorem CallInv.evolve (evolves : Evolves s.seen s.db.locators t.db.locators)
    (seen : s.seen ⊆ t.seen) (spent : s.spent ⊆ t.spent) (call : CallInv s c) : CallInv t c := by
  cases c with
  | rotateLegacy old new sess => exact seen call
  | resolve token hash located stale =>
    exact ⟨seen call.1, call.2.1, fun old => ⟨spent (call.2.2 old).1, (call.2.2 old).2⟩⟩
  | revoke token hash located =>
    obtain ⟨known, same, quiet, tenants⟩ := call
    refine ⟨seen known, same, ?_, ?_⟩
    · intro legacy l mem keyed
      apply evolves.inactive mem (by simpa [keyed, Hash.token] using known)
      intro o before hash
      exact quiet legacy o before (hash.trans keyed)
    · intro tenant located l mem hash
      obtain ⟨o, before, oldHash, oldTenant, -⟩ := evolves l mem (by rwa [hash, same])
      exact oldTenant ▸ tenants tenant located o before (oldHash.trans hash)

variable {r : Row} {db : Db}

namespace Inv

variable {m : Manager} {s : System}

section
variable (inv : Inv m s)
include inv

theorem calls_evolve (same : t.calls = s.calls)
    (evolves : Evolves s.seen s.db.locators t.db.locators) (seen : s.seen ⊆ t.seen) (spent : s.spent ⊆ t.spent) :
    ∀ c ∈ t.calls, CallInv t c := by
  intro c mem
  rw [same] at mem
  exact (inv.calls c mem).evolve evolves seen spent

theorem present (t : Token) : Inv m (s.present t) :=
  { inv with
    blank := ⟨mem_cons_of_mem t inv.blank.1, inv.blank.2⟩
    issued_seen := fun u mem => mem_cons_of_mem t (inv.issued_seen u mem)
    spent_seen := fun u mem => mem_cons_of_mem t (inv.spent_seen u mem)
    replaced_seen := fun p mem => mem_cons_of_mem t (inv.replaced_seen p mem)
    calls := inv.calls_evolve rfl (Evolves.refl _ _) (subset_cons_self t s.seen) (fun _ => id) }

theorem enqueue (call : CallInv s c) : Inv m (s.enqueue c) :=
  { inv with
    calls := forall_mem_append.mpr ⟨inv.calls, forall_mem_singleton.mpr call⟩ }

theorem drop (i : Nat) : Inv m { s with calls := s.calls.eraseIdx i } :=
  { inv with calls := fun c mem => inv.calls c (mem_of_mem_eraseIdx mem) }

theorem spend {t : Token} (seen : t ∈ s.seen)
    (quiet : ∀ l ∈ s.db.locators, l.hash.token = t → l.active = false) : Inv m { s with spent := t :: s.spent } :=
  { inv with
    spent_seen := forall_mem_cons.mpr ⟨seen, inv.spent_seen⟩
    ended := forall_mem_cons.mpr ⟨quiet, inv.ended⟩
    calls := inv.calls_evolve rfl (Evolves.refl _ _) (fun _ => id) (subset_cons_self t s.spent) }

theorem rows {rows : List Row} (same : ∀ r ∈ rows, ∃ o ∈ s.db.sessions, o.hash = r.hash ∧ o.identity = r.identity) :
    Inv m { s with db := { s.db with sessions := rows } } :=
  { inv with
    lineage := by
      intro r mem
      obtain ⟨o, before, hash, identity⟩ := same r mem
      exact hash ▸ identity ▸ inv.lineage o before }

theorem answer {r : Resolved} (fresh : r.stale = false)
    (line : ∃ t, (t, r.identity) ∈ s.created ∧ s.Descends t r.token) :
    Inv m { s with resolved := s.resolved ++ [r] } :=
  { inv with
    answered := forall_mem_append.mpr ⟨inv.answered, forall_mem_singleton.mpr ⟨fresh, line⟩⟩ }

theorem ended_evolve (evolves : Evolves s.seen s.db.locators new) :
    ∀ t ∈ s.spent, ∀ l ∈ new, l.hash.token = t → l.active = false := by
  rintro _ spent l mem rfl
  apply evolves.inactive mem (inv.spent_seen _ spent)
  intro o before hash
  exact inv.ended _ spent o before (congrArg token hash)

theorem moved_evolve (evolves : Evolves s.seen s.db.locators new) :
    ∀ p ∈ s.rotations, ∀ l ∈ new, l.hash.token ≠ p.1 := by
  intro p rotated l mem same
  have seen : l.hash.token ∈ s.seen := same ▸ inv.issued_seen _ (inv.rotated_issued p rotated)
  obtain ⟨o, before, hash, -⟩ := evolves l mem seen
  exact inv.moved p rotated o before (hash ▸ same)

end

structure Ends (f : Locator → Locator) : Prop where
  hash : ∀ l, (f l).hash = l.hash
  tenant : ∀ l, (f l).tenantID = l.tenantID
  active : ∀ l, (f l).active = true → l.active = true
  replaced : ∀ l, l.replaced = true → (f l).replaced = true

variable {f : Locator → Locator}

theorem Ends.when (own : Locator → Bool) (hash : ∀ l, (f l).hash = l.hash) (tenant : ∀ l, (f l).tenantID = l.tenantID)
    (ended : ∀ l, (f l).active = false) (replaced : ∀ l, l.replaced = true → (f l).replaced = true) :
    Ends fun l => if own l then f l else l := by
  constructor <;> intro l <;> split
  · exact hash l
  · rfl
  · exact tenant l
  · rfl
  · exact fun active => nomatch (ended l).symm.trans active
  · exact id
  · exact replaced l
  · exact id

theorem Ends.evolves (ends : Ends f) (seen : List Token) (locators : List Locator) :
    Evolves seen locators (locators.map f) := by
  intro l mem _
  obtain ⟨o, before, rfl⟩ := mem_map.mp mem
  exact ⟨o, before, (ends.hash o).symm, (ends.tenant o).symm, ends.active o⟩

theorem mark (inv : Inv m s) (ends : Ends f) : Inv m { s with db := { s.db with locators := s.db.locators.map f } } :=
  { inv with
    owned := by
      intro l mem
      obtain ⟨o, before, rfl⟩ := mem_map.mp mem
      exact ends.hash o ▸ inv.owned o before
    unique := by
      simpa only [map_map, Function.comp_def, ends.hash] using inv.unique
    hashed := by
      intro unkeyed l mem
      obtain ⟨o, before, rfl⟩ := mem_map.mp mem
      exact ends.hash o ▸ inv.hashed unkeyed o before
    moved := inv.moved_evolve (ends.evolves _ _)
    placed := by
      intro t mem
      rcases inv.placed t mem with ⟨l, before, same⟩ | rotated
      · exact .inl ⟨f l, mem_map_of_mem before, by rw [ends.hash, same]⟩
      · exact .inr rotated
    ended := inv.ended_evolve (ends.evolves _ _)
    tombstone := by
      intro p mem issued
      rcases inv.tombstone p mem issued with ⟨l, before, same, replaced⟩ | rotated
      · exact .inl ⟨f l, mem_map_of_mem before, by rw [ends.hash, same], ends.replaced l replaced⟩
      · exact .inr rotated
    calls := inv.calls_evolve rfl (ends.evolves _ _) (fun _ => id) (fun _ => id) }

theorem unreplaced (inv : Inv m s) {t : Token} (fresh : t ∉ s.seen) : (s.replacements.map Prod.fst).count t = 0 := by
  apply count_eq_zero.mpr
  intro mem
  obtain ⟨p, before, same⟩ := mem_map.mp mem
  exact fresh (same ▸ inv.replaced_seen p before)

structure Gains (s t : System) (new : Hash) : Prop where
  fresh : new.token ∉ s.seen
  seen : t.seen = new.token :: s.seen
  issued : t.issued.Perm (new.token :: s.issued)
  replacements : t.replacements = s.replacements
  calls : t.calls = s.calls
  locators : ∀ l ∈ t.db.locators, l.hash = new ∨ l ∈ s.db.locators

/-- The tokens of `gone` are rotated away meanwhile, and their locators with them. -/
structure Moves (s t : System) (new : Hash) (gone : List Token) : Prop extends Gains s t new where
  created : s.created ⊆ t.created
  more : s.rotations ⊆ t.rotations
  rotated : t.rotations.map Prod.fst = s.rotations.map Prod.fst ++ gone
  spent : t.spent = gone ++ s.spent
  resolved : t.resolved = s.resolved
  left : ∀ l ∈ t.db.locators, l.hash.token ∉ gone
  stays : ∀ l ∈ s.db.locators, l ∈ t.db.locators ∨ l.hash.token ∈ gone
  place : ∃ l ∈ t.db.locators, l.hash.token = new.token

namespace Gains

variable {t : System} {new : Hash} {u : Token} (gains : Gains s t new)
include gains

theorem mem_issued : u ∈ t.issued ↔ u = new.token ∨ u ∈ s.issued := by
  rw [gains.issued.mem_iff, mem_cons]

theorem seen_before (mem : u ∈ s.seen) : u ∈ t.seen :=
  gains.seen ▸ mem_cons_of_mem _ mem

theorem unissued (inv : Inv m s) : new.token ∉ s.issued :=
  fun mem => gains.fresh (inv.issued_seen _ mem)

theorem evolves : Evolves s.seen s.db.locators t.db.locators := by
  intro l mem seen
  rcases gains.locators l mem with rfl | before
  · exact absurd seen gains.fresh
  · exact ⟨l, before, rfl, rfl, id⟩

end Gains

theorem moves {t : System} {new : Hash} {gone : List Token} (inv : Inv m s) (moves : Moves s t new gone)
    (hash : m.keyed = false → new = .legacy new.token) (located : ∀ u ∈ gone, ∃ l ∈ s.db.locators, l.hash.token = u)
    (nodup : (t.rotations.map Prod.fst).Nodup) (unique : (t.db.locators.map fun l => l.hash.token).Nodup)
    (lineage : ∀ r ∈ t.db.sessions, ∃ u, (u, r.identity) ∈ t.created ∧ t.Descends u r.hash.token) : Inv m t := by
  have gains := moves.toGains
  have owned : ∀ u ∈ gone, u ∈ s.issued := by
    intro u mem
    obtain ⟨l, there, rfl⟩ := located u mem
    exact inv.owned l there
  constructor
  case blank =>
    refine ⟨gains.seen_before inv.blank.1, fun mem => ?_⟩
    rcases gains.mem_issued.mp mem with same | old
    · exact gains.fresh (same ▸ inv.blank.1)
    · exact inv.blank.2 old
  case issued_seen =>
    intro u mem
    rcases gains.mem_issued.mp mem with rfl | old
    · exact gains.seen ▸ mem_cons_self
    · exact gains.seen_before (inv.issued_seen u old)
  case spent_seen =>
    intro u mem
    rcases mem_append.mp (moves.spent ▸ mem) with away | old
    · exact gains.seen_before (inv.issued_seen u (owned u away))
    · exact gains.seen_before (inv.spent_seen u old)
  case replaced_seen => exact fun p mem => gains.seen_before (inv.replaced_seen p (gains.replacements ▸ mem))
  case rotated_issued =>
    intro p mem
    rcases mem_append.mp (moves.rotated ▸ mem_map_of_mem mem) with old | away
    · obtain ⟨q, before, same⟩ := mem_map.mp old
      exact gains.mem_issued.mpr (.inr (same ▸ inv.rotated_issued q before))
    · exact gains.mem_issued.mpr (.inr (owned _ away))
  case issued_nodup =>
    rw [gains.issued.nodup_iff]
    exact nodup_cons.mpr ⟨gains.unissued inv, inv.issued_nodup⟩
  case rotated_nodup => exact nodup
  case owned =>
    intro l mem
    rcases gains.locators l mem with rfl | before
    · exact gains.mem_issued.mpr (.inl rfl)
    · exact gains.mem_issued.mpr (.inr (inv.owned l before))
  case unique => exact unique
  case hashed =>
    intro unkeyed l mem
    rcases gains.locators l mem with rfl | before
    · exact hash unkeyed
    · exact inv.hashed unkeyed l before
  case moved =>
    intro p mem l member same
    rcases mem_append.mp (moves.rotated ▸ mem_map_of_mem mem) with old | away
    · obtain ⟨q, before, first⟩ := mem_map.mp old
      exact inv.moved_evolve gains.evolves q before l member (same.trans first.symm)
    · exact moves.left l member (same ▸ away)
  case placed =>
    intro u mem
    rw [moves.rotated, mem_append]
    rcases gains.mem_issued.mp mem with rfl | old
    · exact .inl moves.place
    rcases inv.placed u old with ⟨l, before, rfl⟩ | rotated
    · exact (moves.stays l before).imp (⟨l, ·, rfl⟩) .inr
    · exact .inr (.inl rotated)
  case ended =>
    intro u mem l member same
    rcases mem_append.mp (moves.spent ▸ mem) with away | old
    · exact absurd (same ▸ away) (moves.left l member)
    · exact inv.ended_evolve gains.evolves u old l member same
  case tombstone =>
    intro p mem issued
    rw [gains.replacements] at mem
    rw [moves.rotated, mem_append]
    rcases gains.mem_issued.mp issued with same | old
    · exact absurd (same ▸ inv.replaced_seen p mem) gains.fresh
    rcases inv.tombstone p mem old with ⟨l, before, same, replaced⟩ | rotated
    · exact (moves.stays l before).imp (⟨l, ·, same, replaced⟩) fun away => .inr (same ▸ away)
    · exact .inr (.inl rotated)
  case replaced_once =>
    intro u mem unrotated
    rw [moves.rotated, mem_append, not_or] at unrotated
    rw [gains.replacements]
    rcases gains.mem_issued.mp mem with rfl | old
    · exact (inv.unreplaced gains.fresh).le.trans (Nat.zero_le 1)
    · exact inv.replaced_once u old unrotated.1
  case calls =>
    exact inv.calls_evolve gains.calls gains.evolves (fun _ => gains.seen_before) (moves.spent ▸ subset_append_right _ _)
  case lineage => exact lineage
  case answered =>
    intro r mem
    obtain ⟨fresh, line⟩ := inv.answered r (moves.resolved ▸ mem)
    exact ⟨fresh, System.line_grow moves.created moves.more line⟩

theorem mint (inv : Inv m s) (fresh : r.hash.token ∉ s.seen) (hash : m.keyed = false → r.hash = .legacy r.hash.token)
    (locators : db.locators = s.db.locators ++ [⟨r.hash, r.tenantID, false, false⟩])
    (rows : ∀ q ∈ db.sessions, ∃ o ∈ s.db.sessions ++ [r], o.hash = q.hash ∧ o.identity = q.identity) :
    Inv m (s.mint db r) := by
  have created : s.created ⊆ (s.mint db r).created := subset_append_left _ _
  have moved : Moves s (s.mint db r) r.hash [] := {
    fresh, created
    seen := rfl
    issued := s.issued_mint db r
    replacements := rfl
    calls := rfl
    more := refl _
    rotated := (append_nil _).symm
    spent := rfl
    resolved := rfl
    locators := fun l mem => by
      rcases mem_append.mp (locators ▸ mem) with old | new
      · exact .inr old
      · exact .inl (mem_singleton.mp new ▸ rfl)
    left := nofun
    stays := fun l mem => .inl (locators ▸ mem_append_left _ mem)
    place := ⟨_, locators ▸ mem_append_right _ mem_cons_self, rfl⟩ }
  apply inv.moves moved hash nofun inv.rotated_nodup
  · have tokens : (s.mint db r).db.locators.map (fun l => l.hash.token) =
        s.db.locators.map (fun l => l.hash.token) ++ [r.hash.token] := by
      simp [System.mint, locators]
    rw [tokens, nodup_middle, append_nil]
    refine nodup_cons.mpr ⟨fun mem => ?_, inv.unique⟩
    obtain ⟨l, old, same⟩ := mem_map.mp mem
    exact moved.unissued inv (same ▸ inv.owned l old)
  · intro q mem
    obtain ⟨o, before, sameHash, sameIdentity⟩ := rows q mem
    rw [← sameHash, ← sameIdentity]
    rcases mem_append.mp before with old | new
    · exact System.line_grow created (fun _ => id) (inv.lineage o old)
    · cases mem_singleton.mp new
      exact ⟨r.hash.token, mem_append_right _ mem_cons_self, .refl⟩

end Inv

variable {old : Hash} {sess : Session} {now : Int} {new : Hash} {after : Db}

theorem Db.rotate_some (done : db.rotate old new sess now = some after) :
    ∃ live : Locator → Bool, (∃ l ∈ db.locators, live l = true) ∧
      (∀ l, live l = true → l.hash = old ∧ l.active = true) ∧
      after.locators = db.locators.map (fun l => if live l then { l with hash := new } else l) ∧
      ∀ q ∈ after.sessions, ∃ o ∈ db.sessions, o.identity = q.identity ∧ (o.hash = q.hash ∨ o.hash = old ∧ q.hash = new) := by
  obtain ⟨-, done⟩ := guard_some done
  obtain ⟨found, done⟩ := guard_some done
  cases done
  rw [Bool.not_eq_true', Bool.not_eq_false] at found
  refine ⟨_, any_eq_true.mp found, ?_, rfl, ?_⟩
  · intro l live
    simp only [Bool.and_eq_true, beq_iff_eq] at live
    exact ⟨live.1.1, live.2⟩
  · intro q mem
    obtain ⟨o, before, rfl⟩ := mem_map.mp mem
    refine ⟨o, before, ?_⟩
    split
    · rename_i own
      simp only [Bool.and_eq_true, beq_iff_eq] at own
      exact ⟨rfl, .inr ⟨own.1.1.1, rfl⟩⟩
    · exact ⟨rfl, .inl rfl⟩

def Locator.carry (old : Token) (new : Hash) (l : Locator) : Locator :=
  if l.hash.token = old then { l with hash := new } else l

theorem Locator.carry_token (old : Token) (new : Hash) (l : Locator) :
    (l.carry old new).hash.token = if l.hash.token = old then new.token else l.hash.token := by
  unfold carry
  split <;> rfl

namespace Inv

variable {m : Manager} {s : System} {o : Locator}

section
variable (inv : Inv m s)
include inv

theorem locator_unique (left : l ∈ s.db.locators) (right : o ∈ s.db.locators)
    (same : l.hash.token = o.hash.token) : l = o :=
  inj_on_of_nodup_map inv.unique left right same

theorem rotate_moves (done : s.db.rotate old new sess now = some db) :
    ∃ o ∈ s.db.locators, o.hash = old ∧ o.active = true ∧ db.locators = s.db.locators.map (Locator.carry old.token new) := by
  obtain ⟨live, ⟨o, mem, alive⟩, only, after, -⟩ := rotate_some done
  obtain ⟨hash, active⟩ := only o alive
  refine ⟨o, mem, hash, active, after.trans (map_congr_left fun l there => ?_)⟩
  by_cases same : l.hash.token = old.token
  · have here : l = o := inv.locator_unique there mem (same.trans (congrArg token hash.symm))
    rw [Locator.carry, if_pos same, here, if_pos alive]
  · have dead : ¬ live l = true := fun alive => same (congrArg token (only l alive).1)
    rw [Locator.carry, if_neg same, if_neg dead]

theorem mem_carried (there : o ∈ s.db.locators) : l ∈ s.db.locators.map (Locator.carry o.hash.token new) ↔
      l = { o with hash := new } ∨ l ∈ s.db.locators ∧ l.hash.token ≠ o.hash.token := by
  constructor
  · intro mem
    obtain ⟨q, before, rfl⟩ := mem_map.mp mem
    by_cases same : q.hash.token = o.hash.token
    · exact .inl (by rw [Locator.carry, if_pos same, inv.locator_unique before there same])
    · rw [Locator.carry, if_neg same]
      exact .inr ⟨before, same⟩
  · rintro (rfl | ⟨before, other⟩)
    · exact mem_map.mpr ⟨o, there, if_pos rfl⟩
    · exact mem_map.mpr ⟨l, before, if_neg other⟩

theorem tokens_carried (old : Token) (fresh : new.token ∉ s.seen) :
    ((s.db.locators.map (Locator.carry old new)).map fun l => l.hash.token).Nodup := by
  have absent : ∀ l ∈ s.db.locators, l.hash.token ≠ new.token := by
    intro l mem same
    exact fresh (same ▸ inv.issued_seen _ (inv.owned l mem))
  simp only [map_map, Function.comp_def, Locator.carry_token]
  apply List.Nodup.map_on _ inv.unique.of_map
  intro l left o right same
  split at same <;> split at same
  · rename_i here there
    exact inv.locator_unique left right (here.trans there.symm)
  · exact absurd same.symm (absent o right)
  · exact absurd same (absent l left)
  · exact inv.locator_unique left right same

theorem located_unrotated (there : o ∈ s.db.locators) : o.hash.token ∉ s.rotations.map Prod.fst := by
  intro mem
  obtain ⟨p, rotated, same⟩ := mem_map.mp mem
  exact inv.moved p rotated o there same.symm

theorem rotated (fresh : new.token ∉ s.seen)
    (hash : m.keyed = false → new = .legacy new.token) (done : s.db.rotate old new sess now = some db) :
    Inv m (s.rotated db old.token new.token) := by
  obtain ⟨o, there, rfl, -, locators⟩ := inv.rotate_moves done
  have carried : ∀ l, l ∈ db.locators ↔ l = { o with hash := new } ∨ l ∈ s.db.locators ∧ l.hash.token ≠ o.hash.token :=
    fun l => locators ▸ inv.mem_carried there
  have distinct : new.token ≠ o.hash.token := fun same => fresh (same ▸ inv.issued_seen _ (inv.owned o there))
  have more : s.rotations ⊆ (s.rotated db o.hash.token new.token).rotations := subset_append_left _ _
  have moved : Moves s (s.rotated db o.hash.token new.token) new [o.hash.token] := {
    fresh, more
    seen := rfl
    issued := s.issued_rotated db _ _
    replacements := rfl
    calls := rfl
    created := refl _
    rotated := map_append
    spent := rfl
    resolved := rfl
    locators := fun l mem => ((carried l).mp mem).imp (congrArg Locator.hash) And.left
    left := fun l mem away => by
      rcases (carried l).mp mem with rfl | ⟨-, other⟩
      · exact distinct (mem_singleton.mp away)
      · exact other (mem_singleton.mp away)
    stays := fun l before => by
      by_cases same : l.hash.token = o.hash.token
      · exact .inr (mem_singleton.mpr same)
      · exact .inl ((carried l).mpr (.inr ⟨before, same⟩))
    place := ⟨_, (carried _).mpr (.inl rfl), rfl⟩ }
  apply inv.moves moved hash (forall_mem_singleton.mpr ⟨o, there, rfl⟩)
  · rw [moved.rotated, nodup_middle, append_nil]
    exact nodup_cons.mpr ⟨inv.located_unrotated there, inv.rotated_nodup⟩
  · exact locators ▸ inv.tokens_carried o.hash.token fresh
  obtain ⟨-, -, -, -, rows⟩ := rotate_some done
  intro q mem
  obtain ⟨r, before, identity, hash⟩ := rows q mem
  obtain ⟨t, made, line⟩ := System.line_grow moved.created more (inv.lineage r before)
  refine ⟨t, identity ▸ made, ?_⟩
  rcases hash with same | ⟨was, is⟩
  · exact same ▸ line
  · rw [is]
    exact (was ▸ line).tail (mem_append_right _ mem_cons_self)

end

end Inv

variable {legacyOld : Option Hash}

theorem Db.replace_some (done : db.replace old legacyOld r = some after) :
    ∃ hit : Hash → Bool, (∀ h, hit h = true ↔ h = old ∨ legacyOld = some h) ∧
      (∀ l ∈ db.locators, hit l.hash = true → l.active = true) ∧
      after.locators = (db.locators.map fun l => if hit l.hash then { l with replaced := true } else l) ++
        [⟨r.hash, r.tenantID, false, false⟩] ∧
      ∀ q ∈ after.sessions, ∃ o ∈ db.sessions ++ [r], o.hash = q.hash ∧ o.identity = q.identity := by
  obtain ⟨clear, done⟩ := guard_some done
  cases done
  refine ⟨fun h => h == old || legacyOld == some h, ?_, ?_, rfl, ?_⟩
  · simp
  · intro l mem hit
    rw [Bool.not_eq_true, any_eq_false] at clear
    simpa [hit] using clear l mem
  · intro q mem
    obtain ⟨o, before, rfl⟩ := mem_map.mp mem
    refine ⟨o, before, ?_⟩
    split <;> exact ⟨rfl, rfl⟩

theorem Db.replace_none (refused : db.replace old legacyOld r = none) :
    ∃ l ∈ db.locators, l.hash = old ∨ legacyOld = some l.hash := by
  simp only [Db.replace] at refused
  split at refused
  · rename_i met
    obtain ⟨l, mem, hit⟩ := any_eq_true.mp met
    simp only [Bool.and_eq_true, Bool.or_eq_true, beq_iff_eq] at hit
    exact ⟨l, mem, hit.1⟩
  · cases refused

theorem ends_replaced (hit : Hash → Bool) : Inv.Ends fun l => if hit l.hash then { l with replaced := true } else l :=
  .when _ (fun _ => rfl) (fun _ => rfl) (fun _ => Bool.and_false _) fun _ _ => rfl

namespace Inv

variable {m : Manager} {s : System}

theorem hash_of_token (inv : Inv m s) (mem : l ∈ s.db.locators) :
    l.hash = m.hashToken l.hash.token ∨ (if m.keyed then some (legacy l.hash.token) else none) = some l.hash := by
  cases keyed : m.keyed with
  | false =>
    rw [inv.hashed keyed l mem]
    simp [hashToken, keyed, token]
  | true =>
    cases hash : l.hash with
    | keyed t => exact .inl (by simp [hashToken, keyed, token])
    | legacy t => exact .inr (by simp [token])

theorem replace (inv : Inv m s) {old : Token} (seen : old ∈ s.seen) (fresh : r.hash.token ∉ s.seen)
    (hash : m.keyed = false → r.hash = .legacy r.hash.token)
    (done : s.db.replace (m.hashToken old) (if m.keyed then some (.legacy old) else none) r = some db) :
    Inv m ((s.mint db r).replaced old r.hash.token) := by
  obtain ⟨hit, hits, clear, locators, rows⟩ := replace_some done
  have hitOld : ∀ l ∈ s.db.locators, l.hash.token = old → hit l.hash = true := by
    rintro l mem rfl
    exact (hits l.hash).mpr (inv.hash_of_token mem)
  have minted : Inv m (s.mint db r) := (inv.mark (ends_replaced hit)).mint fresh hash locators rows
  have distinct : r.hash.token ≠ old := fun same => fresh (same ▸ seen)
  have tombs : ∀ l ∈ db.locators, l.hash.token = old → l.replaced = true := by
    intro l mem same
    rw [locators] at mem
    rcases mem_append.mp mem with marked | new
    · obtain ⟨o, before, rfl⟩ := mem_map.mp marked
      have hitO : hit o.hash = true := hitOld o before (by rwa [(ends_replaced hit).hash] at same)
      simp only [hitO, if_true]
    · cases mem_singleton.mp new
      exact absurd same distinct
  have quiet : ∀ l ∈ db.locators, l.hash.token = old → l.active = false := by
    intro l mem same
    simp [Locator.active, tombs l mem same]
  -- the first replacement of a token that still has its locator
  have first : old ∈ s.issued → old ∉ s.rotations.map Prod.fst → (s.replacements.map Prod.fst).count old = 0 := by
    intro issued unrotated
    apply count_eq_zero.mpr
    intro mem
    obtain ⟨p, before, same⟩ := mem_map.mp mem
    rcases inv.tombstone p before (same ▸ issued) with ⟨l, there, holds, replaced⟩ | rotated
    · have active : l.active = true := clear l there (hitOld l there (holds.trans same))
      simp [Locator.active, replaced] at active
    · exact unrotated (same ▸ rotated)
  have spent : Inv m { s.mint db r with spent := old :: (s.mint db r).spent } :=
    minted.spend (mem_cons_of_mem _ seen) quiet
  exact { spent with
    replaced_seen := forall_mem_append.mpr ⟨minted.replaced_seen, forall_mem_singleton.mpr (mem_cons_of_mem _ seen)⟩
    tombstone := by
      refine forall_mem_append.mpr ⟨minted.tombstone, forall_mem_singleton.mpr fun issued => ?_⟩
      exact (minted.placed old issued).imp_left fun ⟨l, there, same⟩ => ⟨l, there, same, tombs l there same⟩
    replaced_once := by
      intro t (issued : t ∈ (s.mint db r).issued) unrotated
      have counted : (((s.mint db r).replaced old r.hash.token).replacements.map Prod.fst).count t =
          (s.replacements.map Prod.fst).count t + if t = old then 1 else 0 := by
        by_cases same : t = old
        · simp [System.replaced, System.mint, System.present, same]
        · simp [System.replaced, System.mint, System.present, same, Ne.symm same]
      rw [counted]
      by_cases same : t = old
      · subst same
        rcases mem_cons.mp ((s.issued_mint db r).mem_iff.mp issued) with new | before
        · exact absurd new.symm distinct
        · rw [first before unrotated, if_pos rfl]
      · rw [if_neg same]
        exact minted.replaced_once t issued unrotated }

end Inv

variable {h : Hash}

theorem Db.resolve_none (none : db.resolve h = none) : Quiet db.locators h := by
  intro l mem same
  have absent := find?_eq_none.mp (Option.map_eq_none_iff.mp none) l mem
  simpa [same] using absent

variable {tenant : Bytes}

theorem Db.resolve_some (some : db.resolve h = some tenant) :
    ∃ l ∈ db.locators, l.hash = h ∧ l.tenantID = tenant ∧ l.active = true := by
  obtain ⟨l, found, named⟩ := Option.map_eq_some_iff.mp some
  have holds := find?_some found
  rw [Bool.and_eq_true, beq_iff_eq] at holds
  exact ⟨l, mem_of_find?_eq_some found, holds.1, named, holds.2⟩

theorem Db.lookup_some {idle : Int} (some : db.lookup h tenant idle now = some r) : r ∈ db.sessions ∧ r.hash = h := by
  have holds := find?_some some
  simp only [Bool.and_eq_true, beq_iff_eq] at holds
  exact ⟨mem_of_find?_eq_some some, holds.1.1.1.1⟩

theorem Db.touch_rows (db : Db) (h : Hash) (tenant : Bytes) (now : Int) :
    ∀ r ∈ (db.touch h tenant now).sessions, ∃ o ∈ db.sessions, o.hash = r.hash ∧ o.identity = r.identity := by
  intro r mem
  obtain ⟨o, before, rfl⟩ := mem_map.mp mem
  refine ⟨o, before, ?_⟩
  split <;> exact ⟨rfl, rfl⟩

theorem ends_revoked (own : Locator → Bool) : Inv.Ends fun l => if own l then { l with revoked := true } else l :=
  .when own (fun _ => rfl) (fun _ => rfl) (fun _ => rfl) fun _ => id

theorem Db.delete_quiet (located : ∀ l ∈ db.locators, l.hash = h → l.tenantID = tenant) :
    (db.delete h tenant = none → Quiet db.locators h) ∧
      ∀ after, db.delete h tenant = some after → ∃ own : Locator → Bool,
        after.locators = (db.locators.map fun l => if own l then { l with revoked := true } else l) ∧
        after.sessions ⊆ db.sessions ∧ Quiet after.locators h := by
  simp only [Db.delete]
  split
  · rename_i absent
    refine ⟨fun _ l mem same => ?_, nofun⟩
    rw [Bool.not_eq_true', any_eq_false] at absent
    exact absurd (absent l mem) (by simp [same, located l mem same])
  · refine ⟨nofun, fun after done => ?_⟩
    cases done
    refine ⟨_, rfl, fun r mem => (mem_filter.mp mem).1, fun l mem same => ?_⟩
    obtain ⟨o, before, rfl⟩ := mem_map.mp mem
    have was : o.hash = h := by
      split at same <;> exact same
    simp [was, located o before was, Locator.active]

namespace Inv

variable {m : Manager} {s : System} {hash : Hash} {located : Option Bytes}

theorem advanceResolve (inv : Inv m s) {stale : Bool}
    (call : CallInv s (.resolve token hash located stale)) (now : Int) (touches : Bool) :
    Inv m (s.advanceResolve m token hash located stale now touches) := by
  obtain ⟨seen, same, old⟩ := call
  have again : Inv m ((next hash).elim s fun h => s.enqueue (.resolve token h none stale)) := by
    cases hash with
    | keyed t => exact inv.enqueue ⟨seen, same, fun stale => ⟨(old stale).1, rfl⟩⟩
    | legacy t => exact inv
  cases located with
  | none =>
    simp only [System.advanceResolve]
    split
    · rename_i tenant found
      obtain ⟨l, mem, hash, -, active⟩ := resolve_some found
      -- a stale token has no active locator to be found
      refine inv.enqueue ⟨seen, same, fun stale => ?_⟩
      have ended : l.active = false := inv.ended token (old stale).1 l mem (hash ▸ same)
      simp [ended] at active
    · cases hash <;> exact again
  | some tenant =>
    have fresh : stale = false := by
      cases stale with
      | false => rfl
      | true => cases (old rfl).2
    simp only [System.advanceResolve]
    split
    · rename_i r found
      obtain ⟨mem, held⟩ := lookup_some found
      have line := inv.lineage r mem
      rw [held, same] at line
      cases touches with
      | false => exact inv.answer fresh line
      | true => exact (inv.rows (s.db.touch_rows hash tenant now)).answer fresh line
    · cases hash <;> exact again

theorem deleted (inv : Inv m s) (seen : token ∈ s.seen) (same : hash.token = token)
    (earlier : hash = .legacy token → Quiet s.db.locators (.keyed token)) (quiet : Quiet s.db.locators hash) :
    Inv m (s.deleted token hash) := by
  subst same
  cases hash with
  | keyed t => exact inv.enqueue ⟨seen, rfl, fun _ => quiet, nofun⟩
  | legacy t =>
    apply inv.spend seen
    intro l mem same
    cases hash : l.hash with
    | keyed u =>
      rw [hash] at same
      exact earlier rfl l mem (hash.trans (congrArg Hash.keyed same))
    | legacy u =>
      rw [hash] at same
      exact quiet l mem (hash.trans (congrArg legacy same))

theorem advanceRevoke (inv : Inv m s)
    (call : CallInv s (.revoke token hash located)) : Inv m (s.advanceRevoke token hash located) := by
  obtain ⟨seen, same, earlier, tenants⟩ := call
  cases located with
  | none =>
    simp only [System.advanceRevoke]
    split
    · rename_i tenant found
      obtain ⟨l, mem, held, named, -⟩ := resolve_some found
      refine inv.enqueue ⟨seen, same, earlier, fun t located o there hash => ?_⟩
      cases located
      have here : o = l := inv.locator_unique there mem (by rw [hash, held])
      exact here ▸ named
    · rename_i none
      exact inv.deleted seen same earlier (resolve_none none)
  | some tenant =>
    obtain ⟨refused, done⟩ := delete_quiet (tenants tenant rfl)
    simp only [System.advanceRevoke]
    split
    · rename_i db deleted
      obtain ⟨own, locators, sessions, quiet⟩ := done db deleted
      have marked := (inv.mark (ends_revoked own)).rows fun r mem => ⟨r, sessions mem, rfl, rfl⟩
      rw [← locators] at marked
      refine marked.deleted seen same (fun legacy l mem keyed => ?_) quiet
      have evolves := (ends_revoked own).evolves s.seen s.db.locators
      rw [← locators] at evolves
      apply evolves.inactive mem (by rwa [keyed])
      exact fun o before hash => earlier legacy o before (hash.trans keyed)
    · rename_i none
      exact inv.deleted seen same earlier (refused none)

theorem hashToken_token (m : Manager) (t : Token) : (m.hashToken t).token = t := by
  unfold hashToken
  split <;> rfl

theorem hashToken_legacy (t : Token) (unkeyed : m.keyed = false) : m.hashToken t = .legacy (m.hashToken t).token := by
  simp [hashToken, unkeyed, token]

variable {after : System} {commits : Bool}

theorem issueAs (inv : Inv m s) (legacy : m.keyed = false → hash = .legacy hash.token)
    (done : s.issueAs m hash sess now commits = some after) :
    Inv m after := by
  obtain ⟨fresh, done⟩ := guard_some done
  cases done
  cases commits with
  | false => exact inv
  | true => exact inv.mint fresh legacy rfl fun q mem => ⟨q, mem, rfl, rfl⟩

theorem beginRotate (inv : Inv m s) {old new : Token}
    (done : s.beginRotate m old sess new now commits = some after) : Inv m after := by
  simp only [System.beginRotate] at done
  split at done
  · cases done
    exact inv
  obtain ⟨fresh, done⟩ := guard_some done
  have presented := inv.present old
  split at done
  · cases done
    exact presented
  split at done
  · rename_i db moved
    cases done
    have inv := presented.rotated (by rwa [hashToken_token]) (hashToken_legacy _) moved
    rwa [hashToken_token, hashToken_token] at inv
  · cases done
    split
    · exact presented.enqueue mem_cons_self
    · exact presented

theorem advanceRotate (inv : Inv m s) {old new : Token}
    (done : s.advanceRotate m old new sess now = some after) : Inv m after := by
  obtain ⟨fresh, done⟩ := guard_some done
  split at done
  · rename_i db moved
    cases done
    have inv := inv.rotated (by rwa [hashToken_token]) (hashToken_legacy _) moved
    rwa [hashToken_token] at inv
  · cases done
    exact inv

theorem replaceAuthenticated (inv : Inv m s) {old new : Token}
    (done : s.replaceAuthenticated m old sess new now commits = some after) : Inv m after := by
  obtain ⟨fresh, done⟩ := guard_some done
  have presented := inv.present old
  have named : (m.hashToken new).token ∉ (s.present old).seen := by rwa [hashToken_token]
  split at done
  · cases done
    exact presented
  split at done
  · cases done
    exact presented.mint named (hashToken_legacy new) rfl fun q mem => ⟨q, mem, rfl, rfl⟩
  split at done
  · cases done
    exact presented
  rename_i db created
  cases done
  have inv := presented.replace mem_cons_self named (hashToken_legacy new) created
  rwa [show (m.row _ (m.hashToken new) now).hash.token = new from hashToken_token m new] at inv

theorem step (inv : Inv m s) {a : Action} (stepped : m.step s a = some after) : Inv m after := by
  cases a with
  | issue sess new now commits =>
    exact inv.issueAs (hashToken_legacy _) stepped
  | issueLegacy sess new now commits => exact inv.issueAs (fun _ => rfl) stepped
  | rotate old sess new now commits => exact inv.beginRotate stepped
  | replaceAuthenticated old sess new now commits => exact inv.replaceAuthenticated stepped
  | resolve token =>
    simp only [Manager.step] at stepped
    split at stepped
    · cases stepped
      exact inv
    · cases stepped
      apply (inv.present token).enqueue
      exact ⟨mem_cons_self, hashToken_token m token, fun stale => ⟨of_decide_eq_true stale, rfl⟩⟩
  | revoke token =>
    simp only [Manager.step] at stepped
    split at stepped
    · cases stepped
      exact inv
    cases stepped
    refine (inv.present token).enqueue ⟨mem_cons_self, hashToken_token m token, fun legacy l mem keyed => ?_, nofun⟩
    -- only a manager without a key begins with the legacy hash, and it has no keyed locators
    cases hasKey : m.keyed with
    | false => exact absurd (keyed.symm.trans (inv.hashed hasKey l mem)) nofun
    | true => simp [hashToken, hasKey] at legacy
  | advance i now commits touches =>
    simp only [Manager.step] at stepped
    split at stepped
    · cases stepped
    rename_i c found
    have call : CallInv { s with calls := s.calls.eraseIdx i } c := by
      apply CallInv.evolve (Evolves.refl _ _)
      · exact refl _
      · exact refl _
      · exact inv.calls c (mem_of_getElem? found)
    have dropped := inv.drop i
    split at stepped
    · cases stepped
      exact dropped
    cases c with
    | rotateLegacy old new sess => exact dropped.advanceRotate stepped
    | resolve token hash located stale =>
      cases stepped
      exact dropped.advanceResolve call now touches
    | revoke token hash located =>
      cases stepped
      exact dropped.advanceRevoke call

end Inv

end Probectl.Auth
