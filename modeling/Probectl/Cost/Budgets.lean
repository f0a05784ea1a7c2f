import Probectl.Lib.Canonical

/-! The budgets of the cost engine, `internal/cost/engine.go`, in exact prices. -/
namespace Probectl.Cost

open Strings List
open Function (update update_self update_of_ne)

inductive TrafficClass where
  | sameZone | interAZ | interRegion | internet | unknown
  deriving DecidableEq

/-- What the zone and owner tables say of an address: its zone and region, and its
service and team. -/
structure Mapper where
  zone : Bytes → Option (Bytes × Bytes)
  owner : Bytes → Bytes × Bytes
  isPrivate : Bytes → Bool

def Mapper.classify (m : Mapper) (src dst : Bytes) : TrafficClass :=
  match m.zone src, m.zone dst with
  | some s, some d => if s.1 = d.1 then .sameZone else if s.2 = d.2 then .interAZ else .interRegion
  | some _, none => if m.isPrivate dst then .unknown else .internet
  | none, _ => .unknown

inductive BudgetKind where
  | team | service
  deriving DecidableEq

/-- `ParseBudgets` lets no other kind pass, and no amount that is not positive. -/
structure Budget where
  kind : BudgetKind
  name : Bytes
  monthlyUSD : ℚ
  positive : 0 < monthlyUSD

def Budget.key (b : Budget) : Bytes :=
  (match b.kind with
  | .team => lit "team:"
  | .service => lit "service:") ++ b.name

structure FlowSample where
  src : Bytes
  dst : Bytes
  bytes : Nat
  time : Int

def FlowSample.ignored (f : FlowSample) : Bool := f.src = [] ∨ f.dst = [] ∨ f.bytes = 0

/-- `month` writes a time as `2006-01`. -/
structure Engine where
  mapper : Mapper
  prices : Option (TrafficClass → Option ℚ)
  budgets : List Budget
  month : Int → Bytes

structure TenantCost where
  month : Bytes := []
  monthUSD : Bytes → ℚ := fun _ => 0
  alerted : Bytes → Bool := fun _ => false

structure Signal where
  target : Bytes
  month : Bytes
  spentUSD : ℚ
  budgetUSD : ℚ
  occurredAt : Int
  deriving DecidableEq

namespace Engine

def price (e : Engine) (f : FlowSample) : ℚ :=
  match e.prices with
  | none => 0
  | some perGiB =>
    match perGiB (e.mapper.classify f.src f.dst) with
    | none => 0
    | some rate => f.bytes / 2 ^ 30 * rate

def attributed (name : Bytes) : Bytes := if name = [] then lit "(unattributed)" else name

def hit (e : Engine) (f : FlowSample) (b : Budget) : Bool :=
  match b.kind with
  | .team => b.name = attributed (e.mapper.owner f.src).2
  | .service => b.name = attributed (e.mapper.owner f.src).1

def charge (e : Engine) (f : FlowSample) (acc : TenantCost × List Signal) (b : Budget) : TenantCost × List Signal :=
  if e.hit f b then
    let spent := acc.1.monthUSD b.key + e.price f
    let tc := { acc.1 with monthUSD := update acc.1.monthUSD b.key spent }
    if b.monthlyUSD ≤ spent ∧ tc.alerted b.key = false then
      ({ tc with alerted := update tc.alerted b.key true },
        acc.2 ++ [⟨b.key, tc.month, spent, b.monthlyUSD, f.time⟩])
    else (tc, acc.2)
  else acc

def rollover (tc : TenantCost) (month : Bytes) : TenantCost := if tc.month = month then tc else { month := month }

def observe (e : Engine) (tc : TenantCost) (f : FlowSample) : TenantCost × List Signal :=
  if f.ignored then (tc, [])
  else e.budgets.foldl (e.charge f) (rollover tc (e.month f.time), [])

def summary (e : Engine) (tc : TenantCost) : List (Budget × ℚ × Bool) :=
  e.budgets.map fun b => (b, tc.monthUSD b.key, b.monthlyUSD ≤ tc.monthUSD b.key)

def after (e : Engine) (flows : List FlowSample) : TenantCost × List Signal :=
  flows.foldl (fun acc f =>
    let (tc, signals) := e.observe acc.1 f
    (tc, acc.2 ++ signals)) ({}, [])

/-! What it should be: the price of the flows of a month. -/

def counted (flows : List FlowSample) : List FlowSample := flows.filter fun f => ¬ f.ignored

def months (e : Engine) (flows : List FlowSample) : List Bytes := (counted flows).map (e.month ·.time)

def spent (e : Engine) (b : Budget) (month : Bytes) (flows : List FlowSample) : ℚ :=
  (((counted flows).filter fun f => e.month f.time = month ∧ e.hit f b).map e.price).sum

def reached (e : Engine) (b : Budget) (month : Bytes) (flows : List FlowSample) : Bool :=
  flows.inits.any fun front => b.monthlyUSD ≤ e.spent b month front

/-- Between two flows of one month there is none of another. -/
def Grouped (months : List Bytes) : Prop := ∀ a m b c, months = a ++ m :: (b ++ m :: c) → ∀ x ∈ b, x = m

variable {e : Engine} {b : Budget} {f : FlowSample} {flows : List FlowSample} {tc : TenantCost} {month : Bytes}

def seen (b : Budget) (acc : TenantCost × List Signal) : Bytes × ℚ × Bool × List Signal :=
  (acc.1.month, acc.1.monthUSD b.key, acc.1.alerted b.key, acc.2.filter (·.target = b.key))

variable {acc other : TenantCost × List Signal} {budgets : List Budget}

theorem charge_own (same : seen b acc = seen b other) : seen b (e.charge f acc b) = seen b (e.charge f other b) := by
  simp only [seen, Prod.mk.injEq] at same
  obtain ⟨month, spent, alerted, signals⟩ := same
  unfold charge
  split
  · simp only [seen, month, spent, alerted]
    split <;> simp [alerted, signals]
  · simp [seen, *]

theorem charge_other (apart : c.key ≠ b.key) : seen b (e.charge f acc c) = seen b acc := by
  unfold charge
  split
  · simp only [seen]
    split <;> simp [apart, apart.symm]
  · rfl

theorem charge_all (distinct : (budgets.map Budget.key).Nodup) :
    (b ∈ budgets → seen b (budgets.foldl (e.charge f) acc) = seen b (e.charge f acc b)) ∧
      (b.key ∉ budgets.map Budget.key → seen b (budgets.foldl (e.charge f) acc) = seen b acc) := by
  induction budgets generalizing acc with
  | nil => exact ⟨nofun, fun _ => rfl⟩
  | cons c rest ih =>
    obtain ⟨new, later⟩ := nodup_cons.mp distinct
    constructor
    · intro mem
      obtain rfl | mem := mem_cons.mp mem
      · exact (ih later).2 new
      · have apart : c.key ≠ b.key := fun same => new (same ▸ mem_map_of_mem mem)
        exact ((ih later).1 mem).trans (charge_own (charge_other apart))
    · intro out
      obtain ⟨apart, out⟩ := not_or.mp (mem_cons.not.mp out)
      exact ((ih later).2 out).trans (charge_other (Ne.symm apart))

/-! The totals, one flow further. -/

theorem counted_concat : counted (flows ++ [f]) = counted flows ++ if f.ignored then [] else [f] := by
  cases skipped : f.ignored <;> simp [counted, skipped]

theorem months_concat : e.months (flows ++ [f]) = e.months flows ++ if f.ignored then [] else [e.month f.time] := by
  rw [months, counted_concat, map_append]
  split_ifs <;> rfl

theorem spent_concat : e.spent b month (flows ++ [f]) =
    e.spent b month flows + if f.ignored = false ∧ e.month f.time = month ∧ e.hit f b then e.price f else 0 := by
  rw [spent, counted_concat, filter_append, map_append, sum_append]
  congr 1
  cases f.ignored <;> split_ifs <;> simp_all

theorem reached_concat :
    e.reached b month (flows ++ [f]) = (e.reached b month flows || b.monthlyUSD ≤ e.spent b month (flows ++ [f])) := by
  simp [reached]

theorem spent_unseen (unseen : month ∉ e.months flows) : e.spent b month flows = 0 ∧ e.reached b month flows = false := by
  induction flows using List.reverseRecOn with
  | nil => exact ⟨rfl, by simpa [reached, spent, counted] using b.positive⟩
  | append_singleton flows f ih =>
    rw [reached_concat, spent_concat]
    have older : month ∉ e.months flows ∧ ¬ (f.ignored = false ∧ e.month f.time = month) := by
      rw [months_concat, mem_append, not_or] at unseen
      exact ⟨unseen.1, fun mine => unseen.2 (by simp [mine])⟩
    rw [if_neg fun mine => older.2 ⟨mine.1, mine.2.1⟩, (ih older.1).1, (ih older.1).2]
    exact ⟨add_zero 0, by simpa using b.positive⟩

structure Accounts (e : Engine) (b : Budget) (flows : List FlowSample) (acc : TenantCost × List Signal) : Prop where
  month : acc.1.month = (e.months flows).getLastD []
  spent : acc.1.monthUSD b.key = e.spent b acc.1.month flows
  alerted : acc.1.alerted b.key = e.reached b acc.1.month flows
  raised : ∀ month, ((acc.2.filter (·.target = b.key)).filter (·.month = month)).length =
    if e.reached b month flows then 1 else 0

theorem rollover_accounts (accounts : Accounts e b flows acc) (grouped : Grouped (e.months flows ++ [month])) :
    (rollover acc.1 month).month = month ∧ (rollover acc.1 month).monthUSD b.key = e.spent b month flows ∧
      (rollover acc.1 month).alerted b.key = e.reached b month flows := by
  unfold rollover
  split
  · rename_i same
    subst same
    exact ⟨rfl, accounts.spent, accounts.alerted⟩
  rename_i other
  have unseen : month ∉ e.months flows := by
    intro mem
    obtain ⟨front, rest, split⟩ := append_of_mem mem
    rw [accounts.month, split] at other
    rw [split] at grouped
    have last := grouped front month rest [] (by simp)
    obtain rfl | ⟨between, x, rfl⟩ := rest.eq_nil_or_concat
    · simp at other
    · simp [last, getLast?_cons] at other
  obtain ⟨spent, reached⟩ := spent_unseen unseen
  exact ⟨rfl, spent.symm, reached.symm⟩

theorem total_same (other : ¬ (f.ignored = false ∧ e.month f.time = month ∧ e.hit f b)) :
    e.spent b month (flows ++ [f]) = e.spent b month flows ∧ e.reached b month (flows ++ [f]) = e.reached b month flows := by
  have same : e.spent b month (flows ++ [f]) = e.spent b month flows := by rw [spent_concat, if_neg other, add_zero]
  refine ⟨same, ?_⟩
  rw [reached_concat, same, Bool.or_eq_left_iff_imp, decide_eq_true_iff]
  exact fun reaches => any_eq_true.mpr ⟨flows, by simp, decide_eq_true reaches⟩

theorem charge_total (counts : f.ignored = false) (month : tc.month = e.month f.time)
    (spent : tc.monthUSD b.key = e.spent b tc.month flows) (alerted : tc.alerted b.key = e.reached b tc.month flows) :
    seen b (e.charge f (tc, []) b) =
      (tc.month, e.spent b tc.month (flows ++ [f]), e.reached b tc.month (flows ++ [f]),
        if e.reached b tc.month (flows ++ [f]) && !e.reached b tc.month flows then
          [⟨b.key, tc.month, e.spent b tc.month (flows ++ [f]), b.monthlyUSD, f.time⟩] else []) := by
  unfold charge
  by_cases hit : e.hit f b
  · have total := @spent_concat e b f flows tc.month
    rw [if_pos ⟨counts, month.symm, hit⟩, ← spent] at total
    rw [if_pos hit, reached_concat, total]
    rw [← alerted]
    cases known : tc.alerted b.key <;> by_cases reaches : b.monthlyUSD ≤ tc.monthUSD b.key + e.price f <;>
      simp [seen, reaches, known]
  · obtain ⟨total, reached⟩ := @total_same e b f flows tc.month fun mine => hit mine.2.2
    rw [if_neg hit, total, reached]
    simp [seen, spent, alerted]

theorem Accounts.observe (accounts : Accounts e b flows acc) (distinct : (e.budgets.map Budget.key).Nodup)
    (mem : b ∈ e.budgets) (grouped : Grouped (e.months (flows ++ [f]))) :
    Accounts e b (flows ++ [f]) ((e.observe acc.1 f).1, acc.2 ++ (e.observe acc.1 f).2) := by
  rw [months_concat] at grouped
  unfold Engine.observe
  cases skipped : f.ignored
  · rw [skipped] at grouped
    obtain ⟨month, spent, alerted⟩ := rollover_accounts accounts grouped
    generalize rollover acc.1 (e.month f.time) = tc at month spent alerted
    rw [← month] at spent alerted
    have charged := ((@charge_all e b f (tc, []) e.budgets distinct).1 mem).trans (charge_total skipped month spent alerted)
    rw [if_neg nofun]
    simp only [seen, Prod.mk.injEq] at charged
    obtain ⟨nextMonth, nextSpent, nextAlerted, signals⟩ := charged
    refine ⟨?_, nextMonth ▸ nextSpent, nextMonth ▸ nextAlerted, fun m => ?_⟩
    · simp [months_concat, skipped, nextMonth, month]
    rw [filter_append, filter_append, length_append, accounts.raised, signals]
    by_cases mine : tc.month = m
    · rw [mine, reached_concat]
      cases e.reached b m flows <;> by_cases reaches : b.monthlyUSD ≤ e.spent b m (flows ++ [f]) <;> simp [reaches]
    · rw [(total_same fun hit => mine (month.trans hit.2.1)).2]
      split_ifs <;> simp [mine]
  · have same month := @total_same e b f flows month (by simp [skipped])
    refine ⟨?_, ?_, ?_, fun month => ?_⟩
    · rw [months_concat, skipped]
      simpa using accounts.month
    · exact accounts.spent.trans (same _).1.symm
    · exact accounts.alerted.trans (same _).2.symm
    · simpa [(same month).2] using accounts.raised month

/-- Where the flows of each month arrive together, a budget is charged with what
they cost, and raised once when that first reaches it. -/
theorem budgets_by_month (e : Engine) (distinct : (e.budgets.map Budget.key).Nodup) (flows : List FlowSample)
    (grouped : Grouped (e.months flows)) (b : Budget) (mem : b ∈ e.budgets) :
    (∀ month, (((e.after flows).2.filter (·.target = b.key)).filter (·.month = month)).length =
      if e.reached b month flows then 1 else 0) ∧
    (b, e.spent b (e.after flows).1.month flows,
      decide (b.monthlyUSD ≤ e.spent b (e.after flows).1.month flows)) ∈ e.summary (e.after flows).1 ∧
    (e.after flows).1.month = (e.months flows).getLastD [] := by
  suffices accounts : Accounts e b flows (e.after flows) from
    ⟨accounts.raised, mem_map.mpr ⟨b, mem, by rw [accounts.spent]⟩, accounts.month⟩
  induction flows using List.reverseRecOn with
  | nil => exact ⟨rfl, rfl, (spent_unseen not_mem_nil).2.symm, fun month => by rw [(spent_unseen not_mem_nil).2]; rfl⟩
  | append_singleton flows f ih =>
    have front : Grouped (e.months flows) := by
      intro a m b c split
      rw [months_concat, split] at grouped
      exact grouped a m b _ (by rw [append_assoc, cons_append, append_assoc, cons_append])
    rw [after, foldl_concat]
    exact (ih front).observe distinct mem grouped

/-- One service, one dollar for each flow, and months of ten seconds. -/
def tenSeconds (budgets : List Budget) : Engine :=
  ⟨⟨fun _ => none, fun _ => (lit "web", []), fun _ => false⟩, some fun _ => some 1, budgets, fun t => lit (toString (t / 10))⟩

def web (monthlyUSD : ℚ) (positive : 0 < monthlyUSD) : Budget := ⟨.service, lit "web", monthlyUSD, positive⟩

def flowAt (t : Int) : FlowSample := ⟨lit "a", lit "b", 2 ^ 30, t⟩

/-- Months in order are grouped. -/
theorem grouped_of_sorted {months : List Bytes} (sorted : months.Pairwise NotAfter) : Grouped months := by
  rintro a m b c rfl x mem
  have rest := (pairwise_cons.mp (pairwise_append.mp sorted).2.1)
  exact antisymm ((pairwise_append.mp rest.2).2.2 x mem m mem_cons_self) (rest.1 x (mem_append_left _ mem))

theorem budgets_by_month_two :
    let flows := [flowAt 1, flowAt 2, flowAt 3, flowAt 11, flowAt 12]
    ∀ month ∈ [lit "0", lit "1"], ((((tenSeconds [web 2 two_pos]).after flows).2.filter
      (·.target = lit "service:web")).filter (·.month = month)).length = 1 := by
  intro flows month mem
  have grouped : Grouped ((tenSeconds [web 2 two_pos]).months flows) := grouped_of_sorted (by decide +kernel)
  have raised := (budgets_by_month _ (by decide) flows grouped (web 2 two_pos) (mem_singleton.mpr rfl)).1 month
  have reached : ∀ month ∈ [lit "0", lit "1"], (tenSeconds [web 2 two_pos]).reached (web 2 two_pos) month flows := by
    decide +kernel
  exact raised.trans (if_pos (reached month mem))

/-- A late flow loses the total of its month and arms the alert again. -/
theorem late_flow_rearms :
    let late := [flowAt 1, flowAt 11, flowAt 2]
    ((tenSeconds [web 1 one_pos]).after late).2.map (·.month) = [lit "0", lit "1", lit "0"] ∧
      (tenSeconds [web 2 two_pos]).spent (web 2 two_pos) (lit "0") late = 2 ∧
      ((tenSeconds [web 2 two_pos]).after late).2 = [] ∧
      ((tenSeconds [web 2 two_pos]).after late).1.monthUSD (lit "service:web") = 1 := by
  decide +kernel

end Engine

end Probectl.Cost
