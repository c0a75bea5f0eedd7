import Mappf.Biei.Types

/-! # Sending a render to a peer

`http/internal.rs`: the peer gets what is left of the budget once its address is resolved. -/
namespace Mappf.Biei

open Styles (Duration Instant)

inductive ForwardError
  | retryable (message : String)
  | fatal (message : String)

structure OutgoingRequest (Request : Type) extends ForwardRequest Request where
  originResponseBudgetMs : ℕ

def maxForwardTimeout : Duration := 30 * 10 ^ 9

/-- How long the resolver may take. -/
def forwardTimeout (responseBudgetMs : ℕ) : Duration :=
  max (min (responseBudgetMs * nanosPerMilli) maxForwardTimeout) nanosPerMilli

def durationMillisCeil (duration : ℕ) : ℕ :=
  let whole := duration / nanosPerMilli
  min (if duration % 10 ^ 9 % nanosPerMilli = 0 then whole else whole + 1) (2 ^ 32 - 1)

variable {Request : Type} (advertiseAddrOf : NodeId → Duration → Option (Option String) × Duration)

/-- `send` up to the request it emits. The resolver gets a time limit and says what it found, if anything within that
time, and how long it took. -/
def HttpTransport.send (target : NodeId) (fwd : OutgoingRequest Request) :
    Except ForwardError (String × OutgoingRequest Request) :=
  if fwd.originResponseBudgetMs = 0 then .error (.fatal "forward request has zero origin response budget")
  else
    match advertiseAddrOf target (forwardTimeout fwd.originResponseBudgetMs) with
    | (none, _) =>
      .error (.retryable s!"peer address resolution exceeded origin response budget for {target.value}")
    | (some none, _) => .error (.retryable s!"no advertise address for node {target.value}")
    | (some (some addr), elapsed) =>
      let resolutionMs := durationMillisCeil elapsed
      let remainingBudgetMs := fwd.task.remainingBudgetMs - resolutionMs
      if remainingBudgetMs = 0 then
        .error (.retryable s!"peer address resolution exhausted remote execution budget for {target.value}")
      else
        .ok (addr, { fwd with
          task := { fwd.task with remainingBudgetMs }
          originResponseBudgetMs := max (fwd.originResponseBudgetMs - resolutionMs) 1 })

theorem HttpTransport.send_ok {target : NodeId} {addr : String} {fwd sent : OutgoingRequest Request}
    (h : send advertiseAddrOf target fwd = .ok (addr, sent)) :
    sent.task.remainingBudgetMs = fwd.task.remainingBudgetMs -
        durationMillisCeil (advertiseAddrOf target (forwardTimeout fwd.originResponseBudgetMs)).2 ∧
      sent.task.remainingBudgetMs ≠ 0 := by
  unfold send at h
  split_ifs at h
  split at h
  case h_3 found elapsed hresolved =>
    dsimp only at h
    split_ifs at h with hbudget
    cases h
    exact ⟨by rw [hresolved], hbudget⟩
  all_goals cases h

theorem le_durationMillisCeil {dur : ℕ} (h : durationMillisCeil dur < 2 ^ 32 - 1) :
    (dur : ℤ) ≤ durationMillisCeil dur * nanosPerMilli := by
  unfold durationMillisCeil nanosPerMilli at *
  dsimp only at *
  split_ifs at * <;> omega

theorem toForwardWire_budget (task : InternalTask Request) (now : Instant) (hopLatency : Duration)
    (h : (task.toForwardWire now hopLatency).remainingBudgetMs ≠ 0) :
    (task.toForwardWire now hopLatency).remainingBudgetMs < 2 ^ 32 ∧
      (now + hopLatency * 2 + (task.toForwardWire now hopLatency).remainingBudgetMs * nanosPerMilli : ℤ) ≤
        task.deadline := by
  unfold InternalTask.toForwardWire InternalTask.toWireWithHopLatency nanosPerMilli at *
  dsimp only at *
  omega

/-- The origin's time when the peer's clock shows `time`: the clocks run alike, and the peer's shows `receivedAt` when
the origin's shows `arrival`. -/
def originTime (arrival receivedAt time : Instant) : ℤ := arrival + (time - receivedAt)

theorem forward_within_deadline (target : NodeId) (task : InternalTask Request) (fwd sent : OutgoingRequest Request)
    (addr : String) (startedAt : Instant) (hopLatency : Duration)
    (h : HttpTransport.send advertiseAddrOf target { fwd with task := task.toForwardWire startedAt hopLatency } =
      .ok (addr, sent)) :
    sent.task.remainingBudgetMs ≠ 0 ∧ ∀ (outbound : Duration) (receivedAt : Instant),
      let resolution := (advertiseAddrOf target (forwardTimeout fwd.originResponseBudgetMs)).2
      let arrival := startedAt + resolution + outbound
      let deadline := (sent.task.intoInternal receivedAt).deadline
      originTime arrival receivedAt deadline ≤ task.deadline - 2 * hopLatency + outbound ∧
        ∀ (finishedAt : Instant) (inbound : Duration), finishedAt ≤ deadline → outbound ≤ hopLatency →
          inbound ≤ hopLatency → originTime arrival receivedAt finishedAt + inbound ≤ task.deadline := by
  obtain ⟨hleft, hsent⟩ := HttpTransport.send_ok advertiseAddrOf h
  dsimp only at hleft
  generalize (advertiseAddrOf target (forwardTimeout fwd.originResponseBudgetMs)).2 = resolution at hleft ⊢
  obtain ⟨hcap, hbudget⟩ := toForwardWire_budget task startedAt hopLatency (by omega)
  have hceil := le_durationMillisCeil (show durationMillisCeil resolution < 2 ^ 32 - 1 by omega)
  refine ⟨hsent, fun outbound receivedAt => ?_⟩
  have hdeadline : ((sent.task.intoInternal receivedAt).deadline : ℤ) =
      receivedAt + sent.task.remainingBudgetMs * nanosPerMilli := rfl
  unfold originTime nanosPerMilli at *
  dsimp only
  refine ⟨by omega, fun finishedAt inbound hfinished hout hin => ?_⟩
  rw [← Int.ofNat_le] at hfinished hout hin
  omega

namespace HttpTransport.Example

def task : InternalTask Unit := ⟨1, none, ⟨⟨"basic"⟩, 1⟩, none, (), .x1, .png, 10 ^ 9, 0⟩

def fwd : OutgoingRequest Unit := ⟨⟨task.toForwardWire 0 5000000, .tier2HrwBl, none⟩, 1000⟩

def sent : OutgoingRequest Unit :=
  { fwd with task := { fwd.task with remainingBudgetMs := 988 }, originResponseBudgetMs := 998 }

theorem slow_resolution_charged :
    send (fun _ _ => (some (some "b:80"), 1500000)) ⟨"b"⟩ fwd = .ok ("b:80", sent) ∧ ∀ outbound receivedAt,
      originTime (0 + 1500000 + outbound) receivedAt (sent.task.intoInternal receivedAt).deadline ≤
        task.deadline - 2 * (5000000 : ℕ) + outbound :=
  have hsent : send (fun _ _ => (some (some "b:80"), 1500000)) ⟨"b"⟩ fwd = .ok ("b:80", sent) := rfl
  ⟨hsent, fun outbound receivedAt =>
    ((forward_within_deadline _ _ task fwd sent _ 0 5000000 hsent).2 outbound receivedAt).1⟩

end HttpTransport.Example

end Mappf.Biei
