import Probectl.Lib.Padded

/-! Replay protection of a results stream: `nonceCache.check` of
`internal/agenttransport/freshness.go` and sequences of calls of it. -/
namespace Probectl.Transport

open Strings List Function

/-- Nanoseconds since the Unix epoch. -/
abbrev Instant := Int

def maxDuration : Int := 2 ^ 63 - 1
def minDuration : Int := -2 ^ 63

/-- `time.Time.Sub`, which saturates. -/
def sub (t u : Instant) : Int := max minDuration (min maxDuration (t - u))

/-- Seconds from the first year to the Unix epoch. -/
def unixToInternal : Int := 62135596800

/-- `time.Unix(sec, 0)`: the seconds since the first year wrap around. -/
def unix (sec : Int) : Instant :=
  ((sec + unixToInternal + 2 ^ 63) % 2 ^ 64 - 2 ^ 63 - unixToInternal) * 10 ^ 9

/-- `strconv.ParseInt(s, 10, 64)`. -/
def parseInt (s : Bytes) : Option Int :=
  let (negative, digits) :=
    match s with
    | 45 :: rest => (true, rest)
    | 43 :: rest => (false, rest)
    | _ => (false, s)
  if digits = [] ∨ ¬ digits.all isDigit then none
  else
    let n := Text.digitsValue digits
    if negative then if n ≤ 2 ^ 63 then some (-n) else none else if n < 2 ^ 63 then some n else none

def defaultFreshnessWindow : Int := 10 * 60 * 10 ^ 9
def noncesPerAgent : Nat := 256

structure Metadata where
  sentAt : List Bytes
  nonce : List Bytes

inductive CheckError where
  | missing
  | malformed
  | stale
  | replayed
  | exhausted
  deriving DecidableEq

/-- The nonces of an agent stand with the time they were seen. -/
structure NonceCache where
  window : Int
  seen : Bytes → List (Bytes × Instant)

def newNonceCache (window : Int) : NonceCache :=
  ⟨if window ≤ 0 then defaultFreshnessWindow else window, fun _ => []⟩

def envelope (md : Metadata) : Except CheckError (Bytes × Int) :=
  match md.sentAt, md.nonce with
  | sentAt :: _, nonce :: _ =>
    if nonce = [] then .error .missing
    else
      match parseInt sentAt with
      | some sentUnix => .ok (nonce, sentUnix)
      | none => .error .malformed
  | _, _ => .error .missing

def sweep (window : Int) (now : Instant) (agentSeen : List (Bytes × Instant)) : List (Bytes × Instant) :=
  agentSeen.filter fun entry => decide (sub now entry.2 ≤ window)

def judge (window : Int) (now : Instant) (nonce : Bytes) (agentSeen : List (Bytes × Instant)) :
    Except CheckError Unit × List (Bytes × Instant) :=
  let kept := sweep window now agentSeen
  if nonce ∈ kept.map Prod.fst then (.error .replayed, kept)
  else if noncesPerAgent ≤ kept.length then (.error .exhausted, kept)
  else (.ok (), (nonce, now) :: kept)

def fresh (window : Int) (now : Instant) (sentUnix : Int) : Bool :=
  let d := sub now (unix sentUnix)
  decide (d ≤ window) && decide (-window ≤ d)

def NonceCache.check (c : NonceCache) (md : Metadata) (agentKey : Bytes) (now : Instant) :
    Except CheckError Unit × NonceCache :=
  match envelope md with
  | .error err => (.error err, c)
  | .ok (nonce, sentUnix) =>
    if fresh c.window now sentUnix then
      let (verdict, agentSeen) := judge c.window now nonce (c.seen agentKey)
      (verdict, { c with seen := update c.seen agentKey agentSeen })
    else (.error .stale, c)

/-! Sequences of calls. -/

structure Call where
  md : Metadata
  agentKey : Bytes
  now : Instant

structure Accepted where
  agentKey : Bytes
  nonce : Bytes
  sentUnix : Int
  now : Instant
  deriving DecidableEq

def accepted (c : NonceCache) (call : Call) : List Accepted :=
  match envelope call.md, (c.check call.md call.agentKey call.now).1 with
  | .ok (nonce, sentUnix), .ok () => [⟨call.agentKey, nonce, sentUnix, call.now⟩]
  | _, _ => []

def serve : NonceCache → List Call → NonceCache × List Accepted
  | c, [] => (c, [])
  | c, call :: rest =>
    let (last, later) := serve (c.check call.md call.agentKey call.now).2 rest
    (last, accepted c call ++ later)

def Accepted.Same (a b : Accepted) : Prop := a.agentKey = b.agentKey ∧ a.nonce = b.nonce ∧ a.sentUnix = b.sentUnix

instance (a b : Accepted) : Decidable (a.Same b) := inferInstanceAs (Decidable (_ ∧ _ ∧ _))

theorem sub_le (shorter : t - u ≤ t' - u') : sub t u ≤ sub t' u' := by
  apply max_le_max le_rfl
  exact min_le_min le_rfl shorter

theorem check_window (c : NonceCache) (call : Call) : (c.check call.md call.agentKey call.now).2.window = c.window := by
  unfold NonceCache.check
  split
  · rfl
  · split
    all_goals rfl

theorem check_seen (c : NonceCache) (call : Call) (agent : Bytes) :
    (c.check call.md call.agentKey call.now).2.seen agent = c.seen agent ∨
      ∃ nonce, (c.check call.md call.agentKey call.now).2.seen agent =
        (judge c.window call.now nonce (c.seen agent)).2 := by
  unfold NonceCache.check
  split
  · exact .inl rfl
  rename_i nonce sentUnix read
  split
  · by_cases mine : agent = call.agentKey
    · subst mine
      exact .inr ⟨nonce, update_self _ _ _⟩
    · exact .inl (update_of_ne mine _ _)
  · exact .inl rfl

variable {c : NonceCache} {call : Call} {a : Accepted}

theorem mem_accepted (mem : a ∈ accepted c call) :
    a.agentKey = call.agentKey ∧ a.now = call.now ∧ fresh c.window call.now a.sentUnix = true ∧
      a.nonce ∉ (sweep c.window call.now (c.seen call.agentKey)).map Prod.fst ∧
      (a.nonce, a.now) ∈ (c.check call.md call.agentKey call.now).2.seen call.agentKey := by
  unfold accepted at mem
  unfold NonceCache.check at mem ⊢
  cases read : envelope call.md with
  | error err => simp [read] at mem
  | ok pair =>
    obtain ⟨nonce, sentUnix⟩ := pair
    simp only [read] at mem
    by_cases young : fresh c.window call.now sentUnix = true
    · simp only [young, if_true] at mem ⊢
      by_cases held : nonce ∈ (sweep c.window call.now (c.seen call.agentKey)).map Prod.fst
      · simp [judge, held] at mem
      by_cases full : noncesPerAgent ≤ (sweep c.window call.now (c.seen call.agentKey)).length
      · simp only [judge, if_neg held, if_pos full] at mem
        cases mem
      · simp only [judge, if_neg held, if_neg full, update_self] at mem ⊢
        obtain rfl := mem_singleton.mp mem
        exact ⟨rfl, rfl, young, held, mem_cons_self⟩
    · simp [young] at mem

variable {now : Instant}

theorem judge_length
    (bounded : agentSeen.length ≤ noncesPerAgent) : (judge window now nonce agentSeen).2.length ≤ noncesPerAgent := by
  have kept : (sweep window now agentSeen).length ≤ noncesPerAgent := (length_filter_le _ _).trans bounded
  unfold judge
  dsimp only
  split
  · exact kept
  split
  · exact kept
  · rename_i room
    exact Nat.lt_of_not_le room

theorem serve_bounded (calls : List Call) (c : NonceCache) (bounded : ∀ agent, (c.seen agent).length ≤ noncesPerAgent) :
    ∀ agent, ((serve c calls).1.seen agent).length ≤ noncesPerAgent := by
  induction calls generalizing c with
  | nil => exact bounded
  | cons call rest ih =>
    apply ih
    intro agent
    rcases check_seen c call agent with same | ⟨nonce, swept⟩
    · rw [same]
      exact bounded agent
    · rw [swept]
      exact judge_length (bounded agent)

def Remembered (c : NonceCache) (a : Accepted) (now : Instant) : Prop :=
  (a.nonce, a.now) ∈ c.seen a.agentKey ∨ c.window < sub now a.now

theorem Remembered.check (remembered : Remembered c a now)
    (later : now ≤ call.now) : Remembered (c.check call.md call.agentKey call.now).2 a call.now := by
  unfold Remembered
  rw [check_window]
  rcases remembered with held | past
  · rcases check_seen c call a.agentKey with same | ⟨nonce, swept⟩
    · rw [same]
      exact .inl held
    by_cases old : c.window < sub call.now a.now
    · exact .inr old
    left
    have kept : (a.nonce, a.now) ∈ sweep c.window call.now (c.seen a.agentKey) := by
      apply mem_filter.mpr
      exact ⟨held, decide_eq_true (not_lt.mp old)⟩
    rw [swept]
    unfold judge
    dsimp only
    split
    · exact kept
    · split
      · exact kept
      · exact mem_cons_of_mem _ kept
  · right
    exact past.trans_le (sub_le (Int.sub_le_sub_right later a.now))

theorem Remembered.refuses (remembered : Remembered c a now)
    (past : unix a.sentUnix ≤ a.now) (later : now ≤ call.now) (mem : b ∈ accepted c call) :
    ¬ a.Same b := by
  rintro ⟨agents, nonces, sents⟩
  obtain ⟨agent, -, young, unheld, -⟩ := mem_accepted mem
  have age : sub call.now (unix a.sentUnix) ≤ c.window := by
    rw [sents]
    simp only [fresh, Bool.and_eq_true, decide_eq_true_eq] at young
    exact young.1
  have since : sub call.now a.now ≤ c.window := (sub_le (Int.sub_le_sub_left past call.now)).trans age
  rcases remembered with held | gone
  · apply unheld
    rw [← nonces, ← agent, ← agents]
    apply mem_map.mpr
    exact ⟨_, mem_filter.mpr ⟨held, decide_eq_true since⟩, rfl⟩
  · have longer : sub now a.now ≤ sub call.now a.now := sub_le (Int.sub_le_sub_right later a.now)
    omega

variable {calls : List Call}

theorem refused_later (remembered : Remembered c a now)
    (past : unix a.sentUnix ≤ a.now) (ordered : (now :: calls.map Call.now).Pairwise (· ≤ ·)) :
    ∀ b ∈ (serve c calls).2, ¬ a.Same b := by
  induction calls generalizing c now with
  | nil =>
    intro b mem
    cases mem
  | cons call rest ih =>
    obtain ⟨first, tail⟩ := pairwise_cons.mp ordered
    have later : now ≤ call.now := first _ mem_cons_self
    intro b mem
    rcases mem_append.mp mem with here | behind
    · exact remembered.refuses past later here
    · exact ih (remembered.check later) tail b behind

theorem serve_once (ordered : (calls.map Call.now).Pairwise (· ≤ ·))
    (past : ∀ a ∈ (serve c calls).2, unix a.sentUnix ≤ a.now) : (serve c calls).2.Pairwise fun a b => ¬ a.Same b := by
  induction calls generalizing c with
  | nil => exact .nil
  | cons call rest ih =>
    have tail := (pairwise_cons.mp ordered).2
    apply pairwise_append.mpr
    refine ⟨?_, ih tail fun a mem => past a (mem_append_right _ mem), ?_⟩
    · unfold accepted
      split
      · exact pairwise_singleton _ _
      · exact .nil
    · intro a mem
      obtain ⟨agent, now, -, -, held⟩ := mem_accepted mem
      have remembered : Remembered (c.check call.md call.agentKey call.now).2 a call.now := .inl (agent ▸ held)
      exact refused_later remembered (past a (mem_append_left _ mem)) ordered

/-- A cache never holds more nonces than it may, and no envelope is accepted twice
if none was sent later than it was seen. -/
theorem accepted_once (window : Int) (calls : List Call) (ordered : (calls.map Call.now).Pairwise (· ≤ ·)) :
    (∀ agent, ((serve (newNonceCache window) calls).1.seen agent).length ≤ noncesPerAgent) ∧
      ((∀ a ∈ (serve (newNonceCache window) calls).2, unix a.sentUnix ≤ a.now) →
        (serve (newNonceCache window) calls).2.Pairwise fun a b => ¬ a.Same b) := by
  constructor
  · apply serve_bounded
    intro agent
    exact Nat.zero_le _
  · intro past
    exact serve_once ordered past

def envelopeOf (sentAt nonce : String) : Metadata := ⟨[lit sentAt], [lit nonce]⟩

def agentCalls : List Call :=
  [⟨envelopeOf "1000" "a1", lit "agent", 1001 * 10 ^ 9⟩, ⟨envelopeOf "1060" "b2", lit "agent", 1061 * 10 ^ 9⟩,
    ⟨envelopeOf "1000" "a1", lit "agent", 1062 * 10 ^ 9⟩]

theorem accepted_once_agent :
    (serve (newNonceCache 0) agentCalls).2.length = 2 ∧
      (serve (newNonceCache 0) agentCalls).2.Pairwise fun a b => ¬ a.Same b :=
  ⟨by decide +kernel, (accepted_once 0 agentCalls (by decide +kernel)).2 (by decide +kernel)⟩

def fastAgentCalls : List Call :=
  [⟨envelopeOf "1600" "a1", lit "agent", 1000 * 10 ^ 9⟩, ⟨envelopeOf "1600" "a1", lit "agent", 1600 * 10 ^ 9 + 1⟩]

theorem accepted_twice :
    (fastAgentCalls.map Call.now).Pairwise (· ≤ ·) ∧
      (serve (newNonceCache defaultFreshnessWindow) fastAgentCalls).2 =
        [⟨lit "agent", lit "a1", 1600, 1000 * 10 ^ 9⟩, ⟨lit "agent", lit "a1", 1600, 1600 * 10 ^ 9 + 1⟩] := by
  decide +kernel

end Probectl.Transport
