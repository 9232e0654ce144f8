import SniRouter.Lib.Run
import SniRouter.Net

/-!
# Backing off after a failed accept

The main loop waits for a connection and for SIGHUP at once, and drops the `accept` future when
the signal wins. What must outlive the future, the delay and the deadline of the next attempt,
is kept in `AcceptBackoff`. A run is any sequence of polls, outcomes and cancellations; each
comes with the time that passed since the one before, so that the clock never goes back.
-/

namespace SniRouter

/-! ## The state that survives -/

/-- The kinds of `std::io::Error` that matter here. -/
inductive ErrorKind where
  | interrupted
  | connectionAborted
  | connectionReset
  | invalidData
  | other
deriving DecidableEq

/-- The error of a failed accept: an I/O error, or anything else. -/
inductive AcceptError where
  | io (kind : ErrorKind)
  | other
deriving DecidableEq

/-- `retry_immediately`: the error does not indicate resource pressure. -/
def AcceptError.retryImmediately : AcceptError → Bool
  | .io .interrupted | .io .connectionAborted | .io .connectionReset | .io .invalidData => true
  | .io .other | .other => false

/-- `AcceptBackoff`. -/
structure AcceptBackoff where
  delay : Duration
  retryAt : Option Instant
deriving DecidableEq

/-- `AcceptBackoff::default`. -/
def AcceptBackoff.new : AcceptBackoff := { delay := 0, retryAt := none }

/-- `Ord::clamp`. -/
def clamp (x low high : ℕ) : ℕ := if x < low then low else if x > high then high else x

/-- `AcceptBackoff::failed`: the state after an error at time `now`, and the delay it returns. -/
def AcceptBackoff.failed (b : AcceptBackoff) (now : Instant) (error : AcceptError) :
    AcceptBackoff × Duration :=
  let (b, delay) :=
    if error.retryImmediately then (b, 0)
    else
      let delay := clamp (b.delay * 2) (fromMillis 100) (fromMillis 1000)
      ({ b with delay := delay }, delay)
  ({ b with retryAt := some (now + delay) }, delay)

/-! ## The future -/

/-- The await point at which the `accept` future is suspended. -/
inductive AcceptFuture where
  /-- In `sleep_until`. -/
  | sleeping (deadline : Instant)
  /-- An attempt was started and has not finished. -/
  | accepting
deriving DecidableEq

/-- What happened, for the record. -/
inductive AcceptRecord where
  | attempt (time : Instant)
  | failure (time : Instant) (error : AcceptError) (delay : Duration)
  | success (time : Instant)
deriving DecidableEq

/-- The backoff, the future if there is one, and the history of the run. -/
structure AcceptState where
  now : Instant
  backoff : AcceptBackoff
  future : Option AcceptFuture
  log : List AcceptRecord
deriving DecidableEq

/-- Before the first call, at any time. -/
def AcceptState.new (now : Instant) : AcceptState :=
  { now := now, backoff := .new, future := none, log := [] }

/-- The head of the loop, up to the next await point. -/
def AcceptState.loopHead (s : AcceptState) : AcceptState :=
  match s.backoff.retryAt with
  | some deadline => { s with future := some (.sleeping deadline) }
  | none => { s with future := some .accepting, log := s.log ++ [.attempt s.now] }

/-- One step of a run. -/
inductive AcceptEvent where
  /-- The main loop calls `accept` and polls the future. -/
  | call
  /-- The sleeping future is polled. -/
  | poll
  /-- The attempt finishes, with the error if it failed. -/
  | finish (outcome : Option AcceptError)
  /-- `select!` drops the future. -/
  | cancel
deriving DecidableEq

/-- What an event does at the time `s.now`. -/
def acceptAction (s : AcceptState) : AcceptEvent → AcceptState
  | .call =>
    match s.future with
    | none => s.loopHead
    -- the future holds the only reference to the backoff
    | some _ => s
  | .poll =>
    match s.future with
    | some (.sleeping deadline) =>
      if deadline ≤ s.now then
        { s with future := some .accepting, log := s.log ++ [.attempt s.now] }
      else s
    | _ => s
  | .finish outcome =>
    match s.future, outcome with
    | some .accepting, none =>
      { s with backoff := .new, future := none, log := s.log ++ [.success s.now] }
    | some .accepting, some error =>
      let (backoff, delay) := s.backoff.failed s.now error
      AcceptState.loopHead
        { s with backoff := backoff, log := s.log ++ [.failure s.now error delay] }
    | _, _ => s
  | .cancel => { s with future := none }

/-- An event, after the time `e.1` since the last one. -/
def acceptStep (s : AcceptState) (e : Duration × AcceptEvent) : AcceptState :=
  acceptAction { s with now := s.now + e.1 } e.2

/-! ## What the history says -/

/-- The delay after `n` errors in a row that call for one. -/
def backoffDelay : ℕ → Duration
  | 0 => 0
  | n + 1 => fromMillis (min (100 * 2 ^ n) 1000)

/-- How a record changes the number of errors that call for a delay since the last success. -/
def AcceptRecord.count (n : ℕ) : AcceptRecord → ℕ
  | .attempt _ => n
  | .failure _ error _ => if error.retryImmediately then n else n + 1
  | .success _ => 0

/-- The errors that call for a delay since the last success. -/
def errorsSinceSuccess (log : List AcceptRecord) : ℕ := log.foldl AcceptRecord.count 0

/-- The time of the latest failure and the delay that was computed for it. -/
def latestFailure (log : List AcceptRecord) : Option (Instant × Duration) :=
  log.foldl (fun last r => match r with
    | .failure time _ delay => some (time, delay)
    | .attempt _ | .success _ => last) none

@[simp] theorem errorsSinceSuccess_concat (log : List AcceptRecord) (r : AcceptRecord) :
    errorsSinceSuccess (log ++ [r]) = r.count (errorsSinceSuccess log) := by
  simp [errorsSinceSuccess]

theorem latestFailure_attempt (log : List AcceptRecord) (t : Instant) :
    latestFailure (log ++ [.attempt t]) = latestFailure log := by
  simp [latestFailure]

theorem latestFailure_success (log : List AcceptRecord) (t : Instant) :
    latestFailure (log ++ [.success t]) = latestFailure log := by
  simp [latestFailure]

theorem latestFailure_failure (log : List AcceptRecord) (t : Instant) (e : AcceptError)
    (d : Duration) : latestFailure (log ++ [.failure t e d]) = some (t, d) := by
  simp [latestFailure]

/-- No attempt is due before the latest failure plus its delay. -/
def DueBy (log : List AcceptRecord) (t : Instant) : Prop :=
  ∀ f d, latestFailure log = some (f, d) → f + d ≤ t

/-- What is promised of a record that follows `log`. -/
def AcceptRecord.Follows (log : List AcceptRecord) : AcceptRecord → Prop
  | .attempt t => DueBy log t
  | .failure _ e d =>
    d = if e.retryImmediately then 0 else backoffDelay (errorsSinceSuccess log + 1)
  | .success _ => True

/-- The promise for every record of `log`. -/
def AllFollow (log : List AcceptRecord) : Prop :=
  ∀ pre r post, log = pre ++ r :: post → r.Follows pre

theorem AllFollow.concat {log : List AcceptRecord} (h : AllFollow log) {r : AcceptRecord}
    (hr : r.Follows log) : AllFollow (log ++ [r]) := by
  intro pre r' post heq
  induction post using List.reverseRecOn with
  | nil =>
    obtain ⟨rfl, hlast⟩ := List.append_inj' heq rfl
    cases hlast
    exact hr
  | append_singleton post last _ =>
    rw [← List.cons_append, ← List.append_assoc] at heq
    exact h pre r' post (List.append_inj' heq rfl).1

/-! ## Doubling and capping -/

theorem clamp_eq {x low high : ℕ} (h : low ≤ high) : clamp x low high = max low (min x high) := by
  unfold clamp
  split_ifs <;> omega

/-- Doubling and clamping the delay counts one more error. -/
theorem clamp_backoffDelay (n : ℕ) :
    clamp (backoffDelay n * 2) (fromMillis 100) (fromMillis 1000) = backoffDelay (n + 1) := by
  cases n with
  | zero => rfl
  | succ n =>
    have hpos : 1 ≤ 2 ^ n := Nat.one_le_two_pow
    have hdouble : 2 ^ (n + 1) = 2 ^ n * 2 := pow_succ 2 n
    rw [clamp_eq (by decide)]
    show max (100 * 1000000) (min (min (100 * 2 ^ n) 1000 * 1000000 * 2) (1000 * 1000000)) =
      min (100 * 2 ^ (n + 1)) 1000 * 1000000
    omega

example : (List.range 6).map (fun n => backoffDelay (n + 1)) =
    [100, 200, 400, 800, 1000, 1000].map fromMillis := by decide

/-- A failure doubles the delay, within its bounds, unless it is retried at once. -/
theorem failed_delay (b : AcceptBackoff) (now : Instant) (e : AcceptError) :
    (b.failed now e).1.delay =
      if e.retryImmediately then b.delay
      else clamp (b.delay * 2) (fromMillis 100) (fromMillis 1000) := by
  unfold AcceptBackoff.failed
  cases e.retryImmediately <;> rfl

/-- The delay that is waited for, which is none when it is retried at once. -/
theorem failed_snd (b : AcceptBackoff) (now : Instant) (e : AcceptError) :
    (b.failed now e).2 = if e.retryImmediately then 0
      else clamp (b.delay * 2) (fromMillis 100) (fromMillis 1000) := by
  unfold AcceptBackoff.failed
  cases e.retryImmediately <;> rfl

/-! ## The invariant -/

/-- What holds between any two events. -/
structure AcceptState.Inv (s : AcceptState) : Prop where
  /-- The stored delay counts the errors since the last success. -/
  delay : s.backoff.delay = backoffDelay (errorsSinceSuccess s.log)
  follow : AllFollow s.log
  /-- The stored deadline, or else the present, is late enough for the next attempt. -/
  due : DueBy s.log (s.backoff.retryAt.getD s.now)
  /-- A sleeping future waits for the stored deadline. -/
  sleeping : ∀ deadline, s.future = some (.sleeping deadline) →
    s.backoff.retryAt = some deadline
  /-- An attempt under way was due. -/
  accepting : s.future = some .accepting → DueBy s.log s.now

theorem DueBy.mono {log : List AcceptRecord} {t t' : Instant} (h : DueBy log t) (ht : t ≤ t') :
    DueBy log t' := by
  intro f d hf
  exact (h f d hf).trans ht

theorem dueBy_attempt {log : List AcceptRecord} {t u : Instant} :
    DueBy (log ++ [.attempt u]) t ↔ DueBy log t := by
  rw [DueBy, DueBy, latestFailure_attempt]

/-- The invariant holds at the start. -/
theorem AcceptState.new_inv (now : Instant) : (AcceptState.new now).Inv where
  delay := rfl
  follow := by
    intro pre r post h
    have hlen := congrArg List.length h
    simp [AcceptState.new] at hlen
  due := by
    intro f d h
    cases h
  sleeping := by
    intro deadline h
    cases h
  accepting := by
    intro h
    cases h

section Steps

variable {s : AcceptState}

/-- Time passes. -/
theorem AcceptState.Inv.elapse (h : s.Inv) (elapsed : Duration) :
    { s with now := s.now + elapsed }.Inv where
  delay := h.delay
  follow := h.follow
  due := by
    have hdue := h.due
    show DueBy s.log (s.backoff.retryAt.getD (s.now + elapsed))
    cases hr : s.backoff.retryAt with
    | none =>
      rw [hr] at hdue
      exact hdue.mono (Nat.le_add_right _ _)
    | some deadline =>
      rw [hr] at hdue
      exact hdue
  sleeping := h.sleeping
  accepting := fun ha => (h.accepting ha).mono (Nat.le_add_right _ _)

/-- An attempt starts at a time it is due. -/
theorem AcceptState.Inv.attempt (h : s.Inv) (hdue : DueBy s.log s.now) :
    { s with future := some .accepting, log := s.log ++ [AcceptRecord.attempt s.now] }.Inv where
  delay := by
    show s.backoff.delay = backoffDelay (errorsSinceSuccess (s.log ++ [_]))
    rw [errorsSinceSuccess_concat]
    exact h.delay
  follow := h.follow.concat hdue
  due := dueBy_attempt.mpr h.due
  sleeping := by
    intro deadline hd
    cases hd
  accepting := fun _ => dueBy_attempt.mpr hdue

/-- The head of the loop keeps it. -/
theorem AcceptState.Inv.loopHead (h : s.Inv) : s.loopHead.Inv := by
  have hdue := h.due
  unfold AcceptState.loopHead
  split
  next deadline hr =>
    refine ⟨h.delay, h.follow, h.due, fun deadline' hd => ?_, fun ha => nomatch ha⟩
    cases hd
    exact hr
  next hr =>
    rw [hr] at hdue
    exact h.attempt hdue

/-- A failed attempt keeps it, with the delay just computed. -/
theorem AcceptState.Inv.failure (h : s.Inv) (e : AcceptError) :
    { s with
      backoff := (s.backoff.failed s.now e).1
      future := none
      log := s.log ++ [AcceptRecord.failure s.now e (s.backoff.failed s.now e).2] }.Inv where
  delay := by
    show (s.backoff.failed s.now e).1.delay = backoffDelay (errorsSinceSuccess (s.log ++ [_]))
    rw [errorsSinceSuccess_concat, failed_delay, h.delay, clamp_backoffDelay]
    simp only [AcceptRecord.count]
    split <;> rfl
  follow := by
    refine h.follow.concat ?_
    show (s.backoff.failed s.now e).2 = _
    rw [failed_snd, h.delay, clamp_backoffDelay]
  due := by
    intro f d hf
    rw [latestFailure_failure] at hf
    cases hf
    exact le_refl _
  sleeping := by
    intro deadline hd
    cases hd
  accepting := by
    intro ha
    cases ha

/-- A successful attempt keeps it, with a new back-off. -/
theorem AcceptState.Inv.success (h : s.Inv) (ha : s.future = some .accepting) :
    { s with
      backoff := .new
      future := none
      log := s.log ++ [AcceptRecord.success s.now] }.Inv where
  delay := by
    show 0 = backoffDelay (errorsSinceSuccess (s.log ++ [_]))
    rw [errorsSinceSuccess_concat]
    rfl
  follow := h.follow.concat trivial
  due := by
    intro f d hf
    rw [latestFailure_success] at hf
    exact h.accepting ha f d hf
  sleeping := by
    intro deadline hd
    cases hd
  accepting := by
    intro ha
    cases ha

/-- The head of the loop forgets where the future was before. -/
theorem loopHead_future (s : AcceptState) (future : Option AcceptFuture) :
    { s with future := future }.loopHead = s.loopHead := by
  unfold AcceptState.loopHead
  cases s.backoff.retryAt <;> rfl

/-- Every outcome of the `select!` keeps it. -/
theorem acceptAction_inv (h : s.Inv) (e : AcceptEvent) : (acceptAction s e).Inv := by
  cases e with
  | call =>
    simp only [acceptAction]
    split
    next => exact h.loopHead
    next => exact h
  | poll =>
    simp only [acceptAction]
    split
    next deadline hf =>
      split
      next hle =>
        have hdue := h.due
        rw [h.sleeping deadline hf] at hdue
        exact h.attempt (hdue.mono hle)
      next => exact h
    next => exact h
  | finish outcome =>
    simp only [acceptAction]
    split
    next hf => exact h.success hf
    next error hf =>
      rw [← loopHead_future _ none]
      exact (h.failure error).loopHead
    next => exact h
  | cancel => exact ⟨h.delay, h.follow, h.due, (fun _ hd => nomatch hd), (fun ha => nomatch ha)⟩

end Steps

/-- It holds after any outcomes at any times. -/
theorem acceptRun_inv (start : Instant) (es : List (Duration × AcceptEvent)) :
    (runFrom acceptStep (.new start) es).Inv :=
  runFrom_invariant (A := fun _ => True) (fun _ e _ h => acceptAction_inv (h.elapse e.1) e.2) es _
    (fun _ _ => trivial) (AcceptState.new_inv start)

/-- In every run: the stored delay is that of the errors since the last success, and so is the
delay computed at each of them; no attempt starts before the latest failure plus the delay
computed for it; a cancellation leaves the backoff as it is; and a success restores the
initial one. -/
theorem acceptBackoff_capped_deadline (start : Instant) (es : List (Duration × AcceptEvent)) :
    let s := runFrom acceptStep (.new start) es
    s.backoff.delay = backoffDelay (errorsSinceSuccess s.log) ∧
      (∀ pre t e d post, s.log = pre ++ .failure t e d :: post →
        d = if e.retryImmediately then 0 else backoffDelay (errorsSinceSuccess pre + 1)) ∧
      (∀ pre t post, s.log = pre ++ .attempt t :: post →
        ∀ f d, latestFailure pre = some (f, d) → f + d ≤ t) ∧
      (∀ elapsed, (acceptStep s (elapsed, .cancel)).backoff = s.backoff) ∧
      (s.future = some .accepting →
        ∀ elapsed, (acceptStep s (elapsed, .finish none)).backoff = .new) := by
  intro s
  have h : s.Inv := acceptRun_inv start es
  refine ⟨h.delay, ?_, ?_, fun _ => rfl, fun ha elapsed => ?_⟩
  · intro pre t e d post hlog
    exact h.follow pre (.failure t e d) post hlog
  · intro pre t post hlog
    exact h.follow pre (.attempt t) post hlog
  · simp only [acceptStep, acceptAction, ha]

end SniRouter
