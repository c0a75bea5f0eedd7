import Mappf.Common.SingleFlight
import Mappf.Lib.Machine

/-! # Runs of a single flight

Leaders stand in the order of their election, so the number of a leader is that of its channel. A guard is dropped
in two steps, with the outcome it was completed with, if any; a follower may be dropped while it waits. -/
namespace Mappf.Common
open List

inductive GuardPhase (ε : Type)
  | leading
  | removed (sender : Option ℕ) (outcome : Option ε)
  | dropped (outcome : Option ε)

structure LeaderGuard (κ ε : Type) where
  key : κ
  phase : GuardPhase ε := .leading

/-- What waiting for the leader returns. -/
def GuardPhase.result {ε : Type} : GuardPhase ε → Option (Option ε)
  | .dropped outcome => some outcome
  | _ => none

def GuardPhase.channel {ε : Type} : GuardPhase ε → Watch.Channel (Option ε)
  | .dropped none => { value := none, senderAlive := false }
  | .dropped (some value) => { value := some value, version := 1, senderAlive := false }
  | _ => { value := none }

inductive FollowerPhase (ε : Type)
  | waiting
  | woken (result : Option ε)
  | cancelled
  deriving DecidableEq

structure Follower (κ ε : Type) where
  key : κ
  receiver : Watch.Receiver
  phase : FollowerPhase ε := .waiting
  deriving DecidableEq

structure FlightRun (κ ε : Type) where
  flights : SingleFlight κ ε := {}
  leaders : List (LeaderGuard κ ε) := []
  followers : List (Follower κ ε) := []

inductive FlightAction (κ ε : Type)
  | begin (key : κ)
  | remove (leader : ℕ) (outcome : Option ε)
  | send (leader : ℕ)
  | wait (follower : ℕ)
  | cancel (follower : ℕ)

namespace FlightRun

variable {κ ε : Type} [DecidableEq κ]

def act (s : FlightRun κ ε) : FlightAction κ ε → FlightRun κ ε
  | .begin key =>
    match s.flights.begin key with
    | (flights, .leader) => { s with flights, leaders := s.leaders ++ [{ key }] }
    | (flights, .follower receiver) => { s with flights, followers := s.followers ++ [{ key, receiver }] }
  | .remove i outcome =>
    match s.leaders[i]? with
    | some ⟨key, .leading⟩ =>
      { s with
        flights := (s.flights.remove key).1
        leaders := s.leaders.set i ⟨key, .removed (s.flights.remove key).2 outcome⟩ }
    | _ => s
  | .send i =>
    match s.leaders[i]? with
    | some ⟨key, .removed sender outcome⟩ =>
      { s with flights := s.flights.finish sender outcome, leaders := s.leaders.set i ⟨key, .dropped outcome⟩ }
    | _ => s
  | .wait i =>
    match s.followers[i]? with
    | some ⟨key, receiver, .waiting⟩ =>
      match s.flights.wait receiver with
      | some result => { s with followers := s.followers.set i ⟨key, receiver, .woken result⟩ }
      | none => s
    | _ => s
  | .cancel i =>
    match s.followers[i]? with
    | some ⟨key, receiver, .waiting⟩ => { s with followers := s.followers.set i ⟨key, receiver, .cancelled⟩ }
    | _ => s

def machine (κ ε : Type) [DecidableEq κ] : Machine (FlightRun κ ε) where
  init := {}
  step := fun s t => ∃ action, t = s.act action

def Leads (s : FlightRun κ ε) (key : κ) (i : ℕ) : Prop := s.leaders[i]? = some ⟨key, .leading⟩

/-- A follower listens to a leader of its key, and has heard only what that leader was completed with. -/
def Follows (leaders : List (LeaderGuard κ ε)) (follower : Follower κ ε) : Prop :=
  follower.receiver.seen = 0 ∧ ∃ leader, leaders[follower.receiver.channel]? = some leader ∧
    leader.key = follower.key ∧ ∀ result, follower.phase = .woken result → leader.phase = .dropped result

structure Inv (s : FlightRun κ ε) : Prop where
  channels : s.flights.channels = s.leaders.map (·.phase.channel)
  entries : ∀ key i, s.flights.entries.lookup key = some i ↔ s.Leads key i
  removed : ∀ (i : ℕ) key sender outcome, s.leaders[i]? = some ⟨key, .removed sender outcome⟩ → sender = some i
  followers : ∀ follower ∈ s.followers, Follows s.leaders follower

variable {s : FlightRun κ ε} {i j : ℕ} {key key' : κ} {p q : GuardPhase ε} {recv : Watch.Receiver}
  {leaders : List (LeaderGuard κ ε)} {foll : Follower κ ε}

omit [DecidableEq κ] in
theorem Follows.set (h : Follows leaders foll) (hi : leaders[i]? = some ⟨key, p⟩)
    (hp : p.result = none) : Follows (leaders.set i ⟨key, q⟩) foll := by
  obtain ⟨hseen, leader, hleader, hkey, hwoken⟩ := h
  refine ⟨hseen, ?_⟩
  by_cases hchannel : i = foll.receiver.channel
  · subst hchannel
    rw [hi] at hleader
    cases hleader
    refine ⟨_, getElem?_set_self (lt_length hi), hkey, fun res hres => ?_⟩
    cases hwoken res hres
    cases hp
  · exact ⟨leader, by rw [getElem?_set_ne hchannel, hleader], hkey, hwoken⟩

omit [DecidableEq κ] in
theorem Follows.append (h : Follows leaders foll) (guard : LeaderGuard κ ε) : Follows (leaders ++ [guard]) foll := by
  obtain ⟨hseen, leader, hleader, hrest⟩ := h
  exact ⟨hseen, leader, getElem?_log.mpr (.inl hleader), hrest⟩

theorem Inv.begin (h : s.Inv) (key : κ) : (s.act (.begin key)).Inv := by
  have hlen : s.flights.channels.length = s.leaders.length := by rw [h.channels, length_map]
  cases hentry : s.flights.entries.lookup key with
  | some i =>
    have hle : s.leaders[i]? = some ⟨key, .leading⟩ := (h.entries key i).mp hentry
    simp only [act, SingleFlight.begin, hentry]
    refine ⟨h.channels, h.entries, h.removed, fun foll hmem => ?_⟩
    rcases mem_append.mp hmem with hold | hnew
    · exact h.followers foll hold
    · rw [mem_singleton.mp hnew]
      refine ⟨?_, _, hle, rfl, nofun⟩
      simp [Watch.Heap.subscribe, h.channels, hle, GuardPhase.channel]
  | none =>
    simp only [act, SingleFlight.begin, hentry]
    refine ⟨?_, fun key' i => ?_, fun i key' sender outcome hi => ?_, fun foll hmem => (h.followers foll hmem).append _⟩
    · simp [Watch.Heap.create, h.channels, GuardPhase.channel]
    · dsimp only [Leads]
      rw [HashMap.lookup_insert_eq, getElem?_log, hlen, ← Leads, ← h.entries]
      split_ifs with hkey
      · subst hkey
        simp [hentry, eq_comm]
      · simp [Ne.symm hkey]
    · obtain hold | ⟨-, heq⟩ := getElem?_log.mp hi
      · exact h.removed i key' sender outcome hold
      · cases heq

/-- A guard that is being dropped goes on to the next step of its drop. -/
theorem Inv.setLeader (h : s.Inv) (hi : s.leaders[i]? = some ⟨key, p⟩) (hp : p.result = none) (hq : q ≠ .leading)
    (hsend : ∀ sender outcome, q = .removed sender outcome → sender = some i) {flights : SingleFlight κ ε}
    {f : Watch.Channel (Option ε) → Watch.Channel (Option ε)}
    (hchannel : flights.channels = s.flights.channels.modify i f) (hf : f p.channel = q.channel)
    (hentry : ∀ key' j, flights.entries.lookup key' = some j ↔ j ≠ i ∧ s.Leads key' j) :
    Inv { s with flights, leaders := s.leaders.set i ⟨key, q⟩ } := by
  refine ⟨?_, fun key' j => ?_, fun j key' sender outcome hj => ?_, fun foll hmem => (h.followers foll hmem).set hi hp⟩
  · rw [hchannel, h.channels]
    apply ext_getElem?
    intro j
    rw [getElem?_modify, getElem?_map, getElem?_map]
    by_cases hij : i = j
    · subst hij
      simp [getElem?_set_self (lt_length hi), hi, hf]
    · simp [getElem?_set_ne hij, hij]
  · rw [hentry]
    constructor
    · rintro ⟨hne, hleader⟩
      exact (getElem?_set_ne hne.symm).trans hleader
    · intro hleader
      obtain ⟨-, heq⟩ | hold := getElem?_set_cases hleader
      · cases heq
        exact absurd rfl hq
      · exact hold
  · obtain ⟨rfl, heq⟩ | ⟨-, hold⟩ := getElem?_set_cases hj
    · cases heq
      exact hsend sender outcome rfl
    · exact h.removed j key' sender outcome hold

theorem Inv.remove (h : s.Inv) (hi : s.leaders[i]? = some ⟨key, .leading⟩) (outcome : Option ε) :
    Inv { s with
      flights := (s.flights.remove key).1
      leaders := s.leaders.set i ⟨key, .removed (s.flights.remove key).2 outcome⟩ } := by
  have hentry := (h.entries key i).mpr hi
  refine h.setLeader (f := id) hi rfl (by nofun) ?_ (by exact (modify_id _ _).symm) rfl fun key' j => ?_
  · intro sender outcome' heq
    cases heq
    exact hentry
  · dsimp only [SingleFlight.remove]
    rw [HashMap.lookup_erase_eq, ← h.entries]
    split_ifs with hkey
    · subst hkey
      simp [hentry, eq_comm]
    · refine ⟨fun hj => ⟨?_, hj⟩, And.right⟩
      rintro rfl
      rw [h.entries, Leads, hi] at hj
      cases hj
      exact hkey rfl

theorem Inv.send (h : s.Inv) {sender : Option ℕ} {outcome : Option ε}
    (hi : s.leaders[i]? = some ⟨key, .removed sender outcome⟩) :
    Inv { s with flights := s.flights.finish sender outcome, leaders := s.leaders.set i ⟨key, .dropped outcome⟩ } := by
  obtain rfl := h.removed i key sender outcome hi
  have hentry : ∀ key' j, (s.flights.finish (some i) outcome).entries.lookup key' = some j ↔ j ≠ i ∧ s.Leads key' j := by
    intro key' j
    rw [SingleFlight.entries_finish, h.entries]
    refine ⟨fun hj => ⟨?_, hj⟩, And.right⟩
    rintro rfl
    rw [Leads, hi] at hj
    cases hj
  cases outcome with
  | none | some value => exact h.setLeader hi rfl (by nofun) (by nofun) (by rfl) rfl hentry

theorem Inv.wait (h : s.Inv) {leader : LeaderGuard κ ε} (hleader : s.leaders[recv.channel]? = some leader)
    (hseen : recv.seen = 0) : s.flights.wait recv = leader.phase.result := by
  have hchannel : s.flights.channels[recv.channel]? = some leader.phase.channel := by
    rw [h.channels, getElem?_map, hleader]
    rfl
  unfold SingleFlight.wait Watch.Heap.changed
  rw [hchannel, hseen]
  cases leader.phase with
  | leading | removed => rfl
  | dropped outcome =>
    cases outcome with
    | none | some value => rfl

theorem Inv.setFollower (h : s.Inv) (hi : s.followers[i]? = some foll) {after : FollowerPhase ε}
    (hheard : ∀ res, after = .woken res → s.flights.wait foll.receiver = some res) :
    Inv { s with followers := s.followers.set i { foll with phase := after } } := by
  refine ⟨h.channels, h.entries, h.removed, fun other hmem => ?_⟩
  rcases mem_or_eq_of_mem_set hmem with hold | rfl
  · exact h.followers other hold
  · obtain ⟨hseen, leader, hleader, hkey, -⟩ := h.followers foll (mem_of_getElem? hi)
    refine ⟨hseen, leader, hleader, hkey, fun res hres => ?_⟩
    have hwait := (h.wait hleader hseen).symm.trans (hheard res hres)
    cases hphase : leader.phase with
    | dropped outcome =>
      rw [hphase] at hwait
      cases hwait
      rfl
    | _ =>
      rw [hphase] at hwait
      cases hwait

theorem Inv.act (h : s.Inv) (action : FlightAction κ ε) : (s.act action).Inv := by
  cases action with
  | begin key => exact h.begin key
  | remove i outcome =>
    simp only [FlightRun.act]
    split
    case h_1 hi => exact h.remove hi outcome
    case h_2 => exact h
  | send i =>
    simp only [FlightRun.act]
    split
    case h_1 hi => exact h.send hi
    case h_2 => exact h
  | wait i =>
    simp only [FlightRun.act]
    split
    case h_1 hi =>
      split
      case h_1 hwait => exact h.setFollower hi (fun _ hres => by cases hres; exact hwait)
      case h_2 => exact h
    case h_2 => exact h
  | cancel i =>
    simp only [FlightRun.act]
    split
    case h_1 hi => exact h.setFollower hi nofun
    case h_2 => exact h

theorem leaders_heard (h : Reachable (machine κ ε) s) :
    (∀ key, s.flights.entries.lookup key ≠ none ↔ ∃! i, s.Leads key i) ∧
    (∀ key i j, s.Leads key i → s.Leads key j → i = j) ∧
    (∀ key, (s.flights.begin key).2 = .leader ↔ ∀ i, ¬s.Leads key i) ∧
    (∀ key receiver, (s.flights.begin key).2 = .follower receiver → s.Leads key receiver.channel) ∧
    ∀ follower ∈ s.followers, ∃ leader, s.leaders[follower.receiver.channel]? = some leader ∧
      leader.key = follower.key ∧ s.flights.wait follower.receiver = leader.phase.result ∧
      ∀ result, follower.phase = .woken result → leader.phase = .dropped result := by
  have hinv : s.Inv := by
    refine h.invariant ⟨rfl, fun _ _ => ⟨fun hi => ?_, fun hi => ?_⟩, fun _ _ _ _ hi => ?_, fun _ hmem => ?_⟩ ?_
    · cases hi
    · cases hi
    · cases hi
    · cases hmem
    · rintro s t hinv ⟨action, rfl⟩
      exact hinv.act action
  have halone : ∀ key i j, s.Leads key i → s.Leads key j → i = j := by
    intro key i j hi hj
    rw [← hinv.entries] at hi hj
    exact Option.some.inj (hi.symm.trans hj)
  refine ⟨fun key => ?_, halone, fun key => ?_, fun key receiver hfoll => ?_, fun follower hmem => ?_⟩
  · rw [Option.ne_none_iff_exists']
    constructor
    · rintro ⟨i, hi⟩
      rw [hinv.entries] at hi
      exact ⟨i, hi, fun j hj => halone key j i hj hi⟩
    · rintro ⟨i, hi, -⟩
      exact ⟨i, (hinv.entries key i).mpr hi⟩
  · simp_rw [← hinv.entries]
    unfold SingleFlight.begin
    cases s.flights.entries.lookup key with
    | none | some sender => simp
  · exact (hinv.entries key _).mp (SingleFlight.begin_follower hfoll).1
  · obtain ⟨hseen, leader, hleader, hkey, hwoken⟩ := hinv.followers follower hmem
    exact ⟨leader, hleader, hkey, hinv.wait hleader hseen, hwoken⟩

/-- A second leader is elected before the first one has sent its outcome. -/
def overtaken : FlightRun Unit ℕ :=
  [.begin (), .begin (), .remove 0 (some 7), .begin (), .send 0, .remove 1 (some 8), .send 1].foldl act {}

theorem overtaken_heard : overtaken.followers = [⟨(), ⟨0, 0⟩, .waiting⟩] ∧
    overtaken.flights.wait ⟨0, 0⟩ = some (some 7) := by
  have h := leaders_heard (s := overtaken) (reachable_foldl act _ _)
  obtain ⟨leader, hleader, -, hwait, -⟩ := h.2.2.2.2 ⟨(), ⟨0, 0⟩, .waiting⟩ (by decide)
  cases hleader
  exact ⟨by decide, hwait⟩

end FlightRun
end Mappf.Common
