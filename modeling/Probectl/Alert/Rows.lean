import Probectl.Alert.Monitor

/-! The durable notification rows beside one engine. The resolve hook deletes a row some
time after the episode ended, so a row mirrors its series as long as no notification
overtakes a delete. -/
namespace Probectl.Alerts

open Strings Run Engine SeriesState Monitor Episode Option

variable {num : Numbers}

def rowOf (episode : Option Episode) : Option NotifyState :=
  episode.bind fun e => e.last.map fun last => ⟨e.start, last⟩

def episodeOf (firing : Bool) (since lastNotified : Time) : Option Episode :=
  if firing then some ⟨since, if lastNotified = 0 then none else some lastNotified⟩ else none

def Core.episode (c : Core num) : Option Episode := episodeOf c.firing c.since c.lastNotified

structure Mirrored (v : View num) : Prop where
  unrestored : v.restored = none
  quiet : ∀ c ∈ v.core, c.firing = false → c.lastNotified = 0
  episode : v.episode = v.core.bind Core.episode
  settled : notified v.episode = true → v.deleting = 0
  row : v.deleting = 0 → v.row = rowOf v.episode

variable {m : Monitor num}

theorem Mirrored.observed
    (before : Mirrored (m.view (rule.key s))) :
    m.episodes (rule.key s) = (m.engine.observed rule s).core.episode ∧
      ((m.engine.observed rule s).firing = false → (m.engine.observed rule s).lastNotified = 0) := by
  obtain ⟨firing, -, lastNotified, since⟩ := observed_keeps m.engine rule s
  have episode : m.episodes _ = ((m.engine.states _).map core).bind Core.episode := before.episode
  have quiet : ∀ c ∈ (m.engine.states _).map core, c.firing = false → c.lastNotified = 0 := before.quiet
  have met : (m.engine.observed rule s).core.episode =
      (m.engine.stateFor rule (rule.key s)).core.episode := by
    dsimp only [Core.episode, core]
    rw [firing, lastNotified, since]
  rw [met, firing, lastNotified, episode]
  obtain known | ⟨unknown, still, never⟩ := stateFor_cases m.engine rule (rule.key s)
  · rw [known] at quiet ⊢
    exact ⟨rfl, quiet _ rfl⟩
  rw [unknown]
  refine ⟨?_, fun _ => never⟩
  dsimp only [core]
  rw [still]
  rfl

/-- No resolve hook of a series still runs when the series is notified as firing. -/
def Undelayed (m : Monitor num) : Act num → Prop
  | .sample rule s now =>
    (∃ a, (m.engine.evalSample rule s now).alert = some a ∧ a.state = .firing) → m.deleting (stateKey rule.id s.labels) = 0
  | _ => True

variable {now : Instant}

theorem entered_episode {st : SeriesState num}
    (unrestored : en.restoredNotify key = none) (quiet : st.firing = false → st.lastNotified = 0) :
    some (mk ((st.core.episode.map start).getD now) (st.core.episode.bind last)) =
      episodeOf true (entered en key st now).since (entered en key st now).lastNotified ∧
      (entered en key st now).firing = true := by
  cases firing : st.firing with
  | true =>
    rw [entered_again firing]
    simp [Core.episode, core, episodeOf, firing]
  | false =>
    have begun : Engine.Begun en key st now _ := entered_first firing
    have since := begun.since unrestored
    have lastNotified := begun.lastNotified
    rw [unrestored, quiet firing] at lastNotified
    rw [since, lastNotified]
    simp [Core.episode, core, episodeOf, firing, begun.firing]

theorem rowOf_continued (episode : Option Episode) (now : Time) :
    rowOf (some ⟨(episode.map start).getD now, episode.bind last⟩) = rowOf episode ∧
      notified (some ⟨(episode.map start).getD now, episode.bind last⟩) = notified episode := by
  cases episode with
  | none => exact ⟨rfl, rfl⟩
  | some e => exact ⟨rfl, rfl⟩

variable {episode : Option Episode}

theorem Mirrored.still {v : View num} {st : SeriesState num} {awaited : Bool}
    (before : Mirrored v) (quiet : st.firing = false → st.lastNotified = 0) (now : v.episode = st.core.episode)
    (still : episode = v.episode) : Mirrored ⟨some st.core, v.restored, v.row, v.deleting, episode, awaited⟩ := by
  subst still
  exact { before with quiet := fun c mem => some.inj mem ▸ quiet, episode := now }

theorem mirrored_sample
    (before : Mirrored (m.view (rule.key s))) (undelayed : Undelayed m (.sample rule s now)) :
    Mirrored ((m.evaluated rule s now).view (rule.key s)) := by
  obtain ⟨episode, quiet⟩ := before.observed
  obtain ⟨out, moves, alert, -, after⟩ := m.view_own rule s now
  rw [after]
  dsimp only [Undelayed] at undelayed
  dsimp only [afterMove, view, Rule.key] at *
  generalize stateKey rule.id s.labels = key at *
  have unrestored : m.engine.restoredNotify key = none := before.unrestored
  generalize m.engine.observed rule s = st at *
  generalize (m.engine.evalSample rule s now).decision = d at *
  cases moves with
  | warming warm same =>
    subst same
    exact before.still quiet episode (if_pos warm)
  | pending cold breach early same =>
    subst same
    refine before.still quiet episode ?_
    rw [episode]
    dsimp only [Core.episode, core]
    cases firing : st.firing with
    | true => simp [track, episodeOf, breach]
    | false => simp [track, breach]
  | fired cold breach reached fires =>
    obtain ⟨continued, entered⟩ := entered_episode unrestored quiet
    have firing : out.st.firing = true := fires.firing.trans entered
    have restored : out.engine.restoredNotify key = none := by
      rw [fires.engine]
      split
      · exact unrestored
      · exact Function.update_self _ _ _
    have kept : (if out.resolve then 1 else 0) = 0 := by
      rw [fires.resolve]
      rfl
    have told : ∀ c ∈ some out.st.core, c.firing = false → c.lastNotified = 0 := by
      intro c mem still
      rw [← some.inj mem] at still
      exact absurd (firing.symm.trans still) (by decide)
    rw [← episode] at continued
    rcases fires.alert with ⟨silent, last⟩ | ⟨⟨a, loud, state⟩, last⟩
    · have episode' : track (m.episodes key) d out.st out.alert now =
          some ⟨((m.episodes key).map Episode.start).getD now, (m.episodes key).bind Episode.last⟩ := by
        simp [track, cold, breach, firing, silent]
      obtain ⟨sameRow, sameTold⟩ := rowOf_continued (m.episodes key) now
      refine ⟨restored, told, ?_, ?_, ?_⟩
      · rw [episode', continued]
        change _ = episodeOf out.st.firing out.st.since out.st.lastNotified
        rw [firing, fires.since, last]
      · rw [episode', kept]
        exact before.settled
      · rw [episode', sameRow, kept]
        unfold rowAfter
        rw [silent]
        exact before.row
    · have idle := undelayed ⟨a, alert.trans loud, state⟩
      have episode' : track (m.episodes key) d out.st out.alert now = some ⟨out.st.since, some now⟩ := by
        have start := congrArg (Option.map start) continued
        simp only [map_some, episodeOf, ↓reduceIte, some.injEq] at start
        rw [fires.since]
        simp [track, cold, breach, firing, loud, start]
      have after : rowAfter (m.rows key) out = some ⟨out.st.since, now⟩ := by
        unfold rowAfter
        rw [loud, ← last]
        exact if_pos state
      refine ⟨restored, told, ?_, ?_, ?_⟩
      · rw [episode']
        change _ = episodeOf out.st.firing out.st.since out.st.lastNotified
        rw [firing, last]
        simp [episodeOf, now.2]
      · rw [kept]
        exact fun _ => idle
      · rw [after, episode']
        exact fun _ => rfl
  | resolved cold clear firing same =>
    subst same
    have ended : track (m.episodes key) d (resolve m.engine rule { st with breachCount := 0 } s d.reason now).st
        (resolve m.engine rule { st with breachCount := 0 } s d.reason now).alert now = none := by
      simp [track, cold, clear]
    refine ⟨unrestored, fun c mem => some.inj mem ▸ fun _ => rfl, ended, ?_, fun idle => nomatch idle⟩
    intro told
    rw [show _ = none from ended] at told
    cases told
  | normal cold clear still same =>
    subst same
    refine before.still quiet episode ?_
    rw [episode]
    dsimp only [Core.episode, core]
    rw [still]
    simp [track, episodeOf]

theorem rowOf_none (untold : notified episode = false) : rowOf episode = none := by
  cases episode with
  | none => rfl
  | some e =>
    cases last : e.last with
    | none =>
      change e.last.map _ = none
      rw [last]
      rfl
    | some t =>
      change e.last.isSome = false at untold
      rw [last] at untold
      cases untold

theorem mirrored_step (before : ∀ key, Mirrored (m.view key)) (single : act ≠ .replace)
    (undelayed : Undelayed m act) (stepped : m.step act = some m') (key : Bytes) : Mirrored (m'.view key) := by
  cases step_steps stepped key with
  | same act still =>
    rw [still]
    exact before key
  | sample rule s now enabled own next =>
    subst own next
    exact mirrored_sample (before _) undelayed
  | swept rule now due =>
    have restored : (m.engine.restoredNotify key).isSome = true := by
      simp only [Engine.due, Engine.stale, Bool.and_eq_true] at due
      exact due.2.1.2
    rw [show m.engine.restoredNotify key = none from (before key).unrestored] at restored
    cases restored
  | hook running next =>
    obtain ⟨unrestored, quiet, episode, settled, -⟩ := before key
    have untold : notified (m.view key).episode = false := by
      by_contra told
      exact running (settled (Bool.not_eq_false _ ▸ told))
    rw [next]
    refine ⟨unrestored, quiet, episode, ?_, fun _ => (rowOf_none untold).symm⟩
    intro told
    exact nomatch untold.symm.trans told
  | replace next => exact absurd rfl single

theorem mirrored_start (key : Bytes) : Mirrored ((start num).view key) :=
  ⟨rfl, nofun, rfl, fun _ => rfl, fun _ => rfl⟩

/-- Where no notification overtakes a running delete, a key without a running hook has
the row of the episode its series is in, and none if it is in none or was not notified. -/
theorem rows_mirror {acts : List (Act num)} {m : Monitor num} (single : Act.replace ∉ acts)
    (undelayed : Along Monitor.step Undelayed (.start num) acts) (ran : run Monitor.step (.start num) acts = some m)
    (key : Bytes) :
    m.episodes key = ((m.engine.states key).bind fun st => episodeOf st.firing st.since st.lastNotified) ∧
      (m.deleting key = 0 → m.rows key = rowOf (m.episodes key)) := by
  have alone : Along step (fun _ act => act ≠ .replace) (.start num) acts := by
    apply along_of_mem
    rintro act mem - rfl
    exact single mem
  have keeps s (act : Act num) t (before : ∀ k, Mirrored (s.view k))
      (admitted : act ≠ .replace ∧ Undelayed s act) (stepped : s.step act = some t) : ∀ k, Mirrored (t.view k) :=
    mirrored_step before admitted.1 admitted.2 stepped
  have mirrored := run_invariant keeps mirrored_start (along_and alone undelayed) ran
  refine ⟨?_, (mirrored key).row⟩
  have episode := (mirrored key).episode
  change m.episodes key = ((m.engine.states key).map core).bind Core.episode at episode
  rw [episode]
  cases m.engine.states key with
  | none => rfl
  | some st => rfl

theorem rows_mirror_again :
    (after [breach 0, clear 1, .hook series, breach 2]).rows series = some ⟨3, 3⟩ := by
  have undelayed : Along step Undelayed (.start whole) [breach 0, clear 1, .hook series, breach 2] := by
    refine fun t first => ⟨fun _ => rfl, ?_⟩
    cases first
    refine fun t second => ⟨fun _ => rfl, ?_⟩
    cases second
    refine fun t third => ⟨trivial, ?_⟩
    cases third
    exact fun t _ => ⟨fun _ => by decide +kernel, trivial⟩
  have ran : run step (.start whole) [breach 0, clear 1, .hook series, breach 2] =
      some (after [breach 0, clear 1, .hook series, breach 2]) := rfl
  have mirror := (rows_mirror (by simp [breach, clear]) undelayed ran series).2 (by decide +kernel)
  rw [mirror]
  decide +kernel

/-- The delete of the first episode runs behind the notification of the second one and
takes its row. -/
theorem row_overtaken :
    (run Monitor.step (.start whole) [breach 0, clear 1, breach 2, .hook series]).isSome = true ∧
      (after [breach 0, clear 1, breach 2, .hook series]).deleting series = 0 ∧
      (after [breach 0, clear 1, breach 2, .hook series]).episodes series = some ⟨3, some 3⟩ ∧
      (after [breach 0, clear 1, breach 2, .hook series]).rows series = none := by
  decide +kernel

end Probectl.Alerts
