import Roster.Proofs.Loop
/-! # What the owner of a worker orders

To submit a job, to let time pass, to stop and to let go come each to its end, and what a worker
does until then is one course among those that its loop may take. -/
namespace Roster
namespace Worker

/-- The loop makes the move by itself. -/
def Move.own : Move → Bool
  | pass _ | «begin» .. | finish | crash => true
  | submit _ | stop | drop => false

/-- The callbacks that come to their end in some moves. -/
def trails (w : Worker) : List Move → List Callback
  | [] => []
  | m :: rest => w.trail m ++ (w.move? m).elim [] fun v => v.trails rest

section

variable {w v : Worker} {m : Move} {ms : List Move}

theorem course?_moves (w : Worker) (ms : List Move) : w.course? (ms.map .move) = w.moves? ms := by
  induction ms generalizing w with
  | nil => rfl
  | cons m ms ih => simp only [List.map_cons, course?, moves?, meet?, ih]

theorem completed_moves (w : Worker) (ms : List Move) :
    w.completed (ms.map .move) = w.trails ms := by
  induction ms generalizing w with
  | nil => rfl
  | cons m ms ih => simp only [List.map_cons, completed, trails, ending, meet?, ih]

theorem Moves.handle (h : w.Moves m v) (hm : m.own = true) : v.handle = w.handle := by
  cases h with
  | submit | stop | drop => cases hm
  | _ => rfl

/-- Whatever each of some moves keeps, all of them do. -/
theorem moves?_induction {P : Worker → Prop}
    (hstep : ∀ {w v : Worker}, ∀ m ∈ ms, P w → w.Moves m v → P v) (hw : P w)
    (hv : w.moves? ms = some v) : P v := by
  induction ms generalizing w with
  | nil =>
    obtain rfl := Option.some.inj hv
    exact hw
  | cons m ms ih =>
    obtain ⟨u, hu, hv⟩ := Option.bind_eq_some_iff.mp hv
    have hfirst : P u := hstep m List.mem_cons_self hw (moves_of_move? hu)
    exact ih (fun m hm => hstep m (List.mem_cons_of_mem _ hm)) hfirst hv

theorem handle_moves? (hm : ∀ m ∈ ms, m.own = true) (hv : w.moves? ms = some v) :
    v.handle = w.handle :=
  moves?_induction (P := fun u => u.handle = w.handle)
    (fun m hmem hu h => (h.handle (hm m hmem)).trans hu) rfl hv

theorem own_of_next {target : Nat} (h : w.next target = some m) : m.own = true := by
  have hpass {t : Nat} (h : (if w.now < min t target then some (.pass (min t target - w.now))
      else none) = some m) : m.own = true := by
    obtain ⟨-, h⟩ := Option.ite_none_right_eq_some.mp h
    obtain rfl := Option.some.inj h
    rfl
  unfold next at h
  dsimp only at h
  split at h
  · split at h
    · obtain rfl := Option.some.inj h
      split <;> rfl
    · exact hpass h
  · split at h
    · obtain rfl := Option.some.inj h
      rfl
    · exact hpass h
  · exact hpass h
  · exact hpass h

theorem reverse_trail (w : Worker) (m : Move) : (w.trail m).reverse = w.trail m := by
  unfold trail
  split
  · split <;> rfl
  · rfl

/-- What a loop does while it is left alone is a course of its own moves. -/
theorem exists_moves (go : Worker → Bool) (target fuel : Nat) (w : Worker) (done : List Callback) :
    ∃ ms, (∀ m ∈ ms, m.own = true) ∧ w.moves? ms = some (runWhile go target fuel w done).1 ∧
      (runWhile go target fuel w done).2 = (w.trails ms).reverse ++ done := by
  have hstop (w : Worker) (done : List Callback) :
      ∃ ms : List Move, (∀ m ∈ ms, m.own = true) ∧ w.moves? ms = some w ∧
        done = (w.trails ms).reverse ++ done := ⟨[], nofun, rfl, rfl⟩
  induction fuel generalizing w done with
  | zero => exact hstop w done
  | succ fuel ih =>
    unfold runWhile
    split
    · split
      · exact hstop w done
      · rename_i m hm
        split
        · exact hstop w done
        · rename_i v hv
          obtain ⟨ms, hms, hmoves, hdone⟩ := ih v (w.trail m ++ done)
          refine ⟨m :: ms, List.forall_mem_cons.mpr ⟨own_of_next hm, hms⟩, ?_, ?_⟩
          · simp only [moves?, hv, Option.bind_some, hmoves]
          · simp only [trails, hv, Option.elim_some, hdone, List.reverse_append, List.append_assoc,
              reverse_trail]
    · exact hstop w done

/-- A loop that comes nearer to its goal with every move reaches it. -/
theorem runWhile_reaches {go : Worker → Bool} {target : Nat} {P : Worker → Prop}
    {left : Worker → Nat}
    (hstep : ∀ {w}, P w → go w = true →
      ∃ m v, w.next target = some m ∧ w.move? m = some v ∧ P v ∧ left v < left w)
    {fuel : Nat} (hw : P w) (hfuel : left w ≤ fuel) (done : List Callback) :
    go (runWhile go target fuel w done).1 = false := by
  induction fuel generalizing w done with
  | zero =>
    cases hgo : go w with
    | false => simpa [runWhile] using hgo
    | true =>
      obtain ⟨_, _, -, -, -, hless⟩ := hstep hw hgo
      omega
  | succ fuel ih =>
    cases hgo : go w with
    | false => simp [runWhile, hgo]
    | true =>
      obtain ⟨m, v, hm, hv, hP, hless⟩ := hstep hw hgo
      simp only [runWhile, hgo, if_true, hm, hv]
      exact ih hP (by omega) _

end

/-- No more jobs wait than there is room for, and no callback is past its end. -/
structure Timely (w : Worker) : Prop where
  room : w.queue.length ≤ queueDepth
  ends : ∀ {c t}, w.phase = .calling c t → w.now ≤ t

theorem timely_of_start? {now interval : Nat} {w : Worker} (h : start? now interval = some w) :
    w.Timely := by
  obtain ⟨-, rfl⟩ := eq_of_start? h
  exact ⟨Nat.zero_le _, nofun⟩

section

variable {w v : Worker} {m : Move} {ms : List Move}

theorem Moves.timely (h : w.Moves m v) (hw : w.Timely) : v.Timely := by
  obtain ⟨hroom, hends⟩ := hw
  cases h with
  | submit _ _ hless =>
    refine ⟨?_, hends⟩
    rw [List.length_append]
    exact hless
  | pass hdue =>
    refine ⟨hroom, fun {c t} hphase => ?_⟩
    have hcalling : w.phase = .calling c t := hphase
    exact hdue t (by simp [due, hcalling])
  | run _ hqueue =>
    rw [hqueue] at hroom
    refine ⟨Nat.le_of_succ_le hroom, fun hphase => ?_⟩
    obtain ⟨-, rfl⟩ := Phase.calling.inj hphase
    exact Nat.le_add_right _ _
  | tick | shutdown =>
    refine ⟨hroom, fun hphase => ?_⟩
    obtain ⟨-, rfl⟩ := Phase.calling.inj hphase
    exact Nat.le_add_right _ _
  | finish | finishLast => exact ⟨hroom, nofun⟩
  | crash => exact ⟨Nat.zero_le _, nofun⟩
  | stop | drop => exact ⟨hroom, hends⟩

theorem timely_moves? (hw : w.Timely) (hv : w.moves? ms = some v) : v.Timely :=
  moves?_induction (fun _ _ hu h => h.timely hu) hw hv

/-- The current callback comes to its end, when it is time. -/
theorem exists_next_of_calling {c : Callback} {t target : Nat} (hw : w.Timely)
    (hphase : w.phase = .calling c t) (ht : t ≤ target) :
    ∃ m v, w.next target = some m ∧ w.move? m = some v ∧
      (w.now < t ∧ v = { w with now := t } ∨
        w.now = t ∧ (v = { w with phase := .crashed, queue := [] } ∨
          v = { w with phase := if c = .shutdown then .ended else .waiting })) := by
  have hnow := hw.ends hphase
  by_cases hlt : w.now < t
  · refine ⟨.pass (t - w.now), { w with now := t }, ?_, ?_, .inl ⟨hlt, rfl⟩⟩
    · simp [next, hphase, Nat.min_eq_left ht, hlt, Nat.not_le.mpr hlt]
    · simp [move?, due, hphase, Nat.add_sub_of_le hnow]
  · obtain rfl : w.now = t := by omega
    cases hcrash : c.crashes with
    | true =>
      refine ⟨.crash, { w with phase := .crashed, queue := [] }, ?_, ?_, .inr ⟨rfl, .inl rfl⟩⟩
      · simp [next, hphase, hcrash]
      · simp [move?, hphase]
    | false =>
      refine ⟨.finish, { w with phase := if c = .shutdown then .ended else .waiting }, ?_, ?_,
        .inr ⟨rfl, .inr rfl⟩⟩
      · simp [next, hphase, hcrash]
      · cases c <;> simp [move?, hphase]

/-- The moves that are left at most before the loop ends, once it is told to. -/
def movesToEnd (w : Worker) : Nat :=
  match w.phase with
  | .waiting => 2
  | .calling c t => (if c = .shutdown then 1 else 3) + if w.now < t then 1 else 0
  | .ended | .crashed => 0

/-- The owner waits for the end of the loop, for as long as the current callback takes. -/
structure Closing (target : Nat) (w : Worker) : Prop where
  timely : w.Timely
  gone : w.handle ≠ .held
  now_le : w.now ≤ target
  ends_le : ∀ {c t}, w.phase = .calling c t → t ≤ target

theorem Closing.exists_next {target : Nat} (hw : w.Closing target) (halive : w.alive = true) :
    ∃ m v, w.next target = some m ∧ w.move? m = some v ∧ v.Closing target ∧
      v.movesToEnd < w.movesToEnd := by
  cases hphase : w.phase with
  | ended | crashed => simp [alive, hphase] at halive
  | waiting =>
    have hready : .shutdown ∈ w.ready := mem_ready.mpr hw.gone
    have hmove : w.move? (.begin .shutdown 0) = some (w.begin .shutdown 0) := by
      simp [move?, hphase, hready]
    refine ⟨.begin .shutdown 0, w.begin .shutdown 0, ?_, hmove, ?_, ?_⟩
    · simp [next, hphase, ready, hw.gone, Callback.takes]
    · refine ⟨(moves_of_move? hmove).timely hw.timely, hw.gone, hw.now_le, fun h => ?_⟩
      obtain ⟨-, rfl⟩ := Phase.calling.inj h
      exact hw.now_le
    · simp [movesToEnd, hphase, «begin»]
  | calling c t =>
    obtain ⟨m, v, hm, hv, hcases⟩ := exists_next_of_calling hw.timely hphase (hw.ends_le hphase)
    have htimely := (moves_of_move? hv).timely hw.timely
    refine ⟨m, v, hm, hv, ?_⟩
    rcases hcases with ⟨hlt, rfl⟩ | ⟨rfl, rfl | rfl⟩
    · refine ⟨⟨htimely, hw.gone, hw.ends_le hphase, hw.ends_le⟩, ?_⟩
      simp [movesToEnd, hphase, hlt]
    · refine ⟨⟨htimely, hw.gone, hw.now_le, fun h => by cases h⟩, ?_⟩
      simp only [movesToEnd, hphase]
      split <;> omega
    · refine ⟨⟨htimely, hw.gone, hw.now_le, fun h => ?_⟩, ?_⟩
      · dsimp only at h
        split at h <;> cases h
      · by_cases hc : c = .shutdown <;> simp [movesToEnd, hphase, hc]

/-- A loop that is told to stop ends. -/
theorem ended_of_run (hw : w.Timely) (hgone : w.handle ≠ .held) :
    (w.run alive (w.now + w.remaining) 5).1.alive = false := by
  have hclosing : w.Closing (w.now + w.remaining) := by
    refine ⟨hw, hgone, Nat.le_add_right _ _, fun h => ?_⟩
    have hnow := hw.ends h
    simp only [remaining, h]
    omega
  have hfuel : w.movesToEnd ≤ 5 := by
    unfold movesToEnd
    split
    · omega
    · split <;> split <;> omega
    · omega
    · omega
  exact runWhile_reaches (fun hv halive => hv.exists_next halive) hclosing hfuel []

/-- A job that is offered has to wait. -/
def full (w : Worker) : Bool := w.alive && queueDepth ≤ w.queue.length

/-- The moves that are left at most before there is room for a job. -/
def movesToRoom (w : Worker) : Nat :=
  if w.full then
    match w.phase with
    | .calling _ t => 2 + if w.now < t then 1 else 0
    | _ => 1
  else 0

theorem movesToRoom_le (h : ∀ c t, w.phase ≠ .calling c t) : w.movesToRoom ≤ 1 := by
  unfold movesToRoom
  split
  · split
    · exact absurd ‹_› (h _ _)
    · exact Nat.le_refl _
  · exact Nat.zero_le _

/-- The owner waits for room in the queue, for as long as the current callback takes. -/
structure Offering (target : Nat) (w : Worker) : Prop where
  timely : w.Timely
  held : w.handle = .held
  ends_le : w.full = true → ∀ {c t}, w.phase = .calling c t → t ≤ target

/-- A loop that waits while the queue is full takes the first job from it. -/
theorem Offering.exists_next_of_waiting {target : Nat} (hw : w.Offering target)
    (hfull : w.full = true) (hphase : w.phase = .waiting) :
    ∃ m v, w.next target = some m ∧ w.move? m = some v ∧ v.Offering target ∧
      v.movesToRoom < w.movesToRoom := by
  obtain ⟨-, hlength⟩ : w.alive = true ∧ queueDepth ≤ w.queue.length := by
    simpa [full] using hfull
  have hpos : 0 < w.queue.length := Nat.lt_of_lt_of_le (by decide) hlength
  obtain ⟨job, rest, hqueue⟩ := List.exists_cons_of_length_pos hpos
  have hmove : w.move? (.begin (.run job) job.takes) = some (w.begin (.run job) job.takes) := by
    simp [move?, hphase, ready, hqueue]
  have hroom := hw.timely.room
  have hnot : (w.begin (.run job) job.takes).full = false := by
    rw [hqueue, List.length_cons] at hroom
    simp [full, «begin», hqueue]
    omega
  refine ⟨_, _, ?_, hmove, ⟨(moves_of_move? hmove).timely hw.timely, hw.held, fun h => ?_⟩, ?_⟩
  · simp [next, hphase, ready, hw.held, hqueue, Callback.takes]
  · rw [hnot] at h
    cases h
  · simp [movesToRoom, hnot, hfull, hphase]

theorem Offering.exists_next {target : Nat} (hw : w.Offering target) (hfull : w.full = true) :
    ∃ m v, w.next target = some m ∧ w.move? m = some v ∧ v.Offering target ∧
      v.movesToRoom < w.movesToRoom := by
  cases hphase : w.phase with
  | ended | crashed => simp [full, alive, hphase] at hfull
  | waiting => exact hw.exists_next_of_waiting hfull hphase
  | calling c t =>
    have ht := hw.ends_le hfull hphase
    obtain ⟨m, v, hm, hv, hcases⟩ := exists_next_of_calling hw.timely hphase ht
    have htimely := (moves_of_move? hv).timely hw.timely
    refine ⟨m, v, hm, hv, ?_⟩
    rcases hcases with ⟨hlt, rfl⟩ | ⟨rfl, rfl | rfl⟩
    · refine ⟨⟨htimely, hw.held, hw.ends_le⟩, ?_⟩
      have hnow : movesToRoom { w with now := t } ≤ 2 := by
        unfold movesToRoom
        split <;> simp [hphase]
      have hleft : w.movesToRoom = 3 := by simp [movesToRoom, hfull, hphase, hlt]
      omega
    · refine ⟨⟨htimely, hw.held, fun _ {_ _} h => by cases h⟩, ?_⟩
      have hleft : 2 ≤ w.movesToRoom := by simp [movesToRoom, hfull, hphase]
      have hend : movesToRoom { w with phase := .crashed, queue := [] } ≤ 1 :=
        movesToRoom_le fun _ _ h => by cases h
      omega
    · have hcalls (c' : Callback) (t' : Nat) :
          (if c = .shutdown then Phase.ended else .waiting) ≠ .calling c' t' := by
        split <;> simp
      refine ⟨⟨htimely, hw.held, fun _ {c' t'} h => absurd h (hcalls c' t')⟩, ?_⟩
      have hend : movesToRoom { w with phase := if c = .shutdown then .ended else .waiting } ≤ 1 :=
        movesToRoom_le hcalls
      have hleft : 2 ≤ w.movesToRoom := by simp [movesToRoom, hfull, hphase]
      omega

theorem not_full_of_makeRoom (hw : w.Timely) (hheld : w.handle = .held) :
    w.makeRoom.1.full = false := by
  have hoffering : w.Offering (w.now + w.remaining) := by
    refine ⟨hw, hheld, fun _ {c t} h => ?_⟩
    have hnow := hw.ends h
    simp only [remaining, h]
    omega
  have hfuel : w.movesToRoom ≤ w.movesUntil (w.now + w.remaining) := by
    have hleft : w.movesToRoom ≤ 3 := by
      unfold movesToRoom
      split
      · split
        · split <;> omega
        · omega
      · omega
    exact Nat.le_trans hleft (Nat.le_mul_of_pos_right 3 (Nat.succ_pos _))
  exact runWhile_reaches (fun hv hfull => hv.exists_next hfull) hoffering hfuel []

end

/-- What the owner of a worker does. -/
inductive Order
  | submit (job : Job)
  | pass (ms : Nat)
  | stop
  | drop
  deriving DecidableEq, Repr

/-- The owner is told that it happened. -/
def Happening.told : Happening → Bool
  | move (.submit _) | refused .. | returned => true
  | _ => false

/-- Carries out an order. The owner is told what becomes of a job, and when it has waited for the
end of the loop, which it cannot do after it let go. The callbacks are those that come to their
end. -/
def obey (w : Worker) : Order → Worker × List Happening × List Callback
  | .submit job =>
    match w.submit job with
    | (v, .ok (), done) => (v, [.move (.submit job)], done)
    | (v, .error why, done) => (v, [.refused job why], done)
  | .pass ms => ((w.advance ms).1, [], (w.advance ms).2)
  | .stop => (w.stop.1, if w.handle = .dropped then [] else [.returned], w.stop.2.1)
  | .drop => (w.drop, [], [])

/-- Carries out several orders, one after the other. -/
def obeyAll (w : Worker) : List Order → Worker × List Happening × List Callback
  | [] => (w, [], [])
  | o :: rest =>
    let (v, told, done) := w.obey o
    let (u, told', done') := v.obeyAll rest
    (u, told ++ told', done ++ done')

/-- Between two orders, a worker that was stopped is down. -/
structure Settled (w : Worker) : Prop where
  timely : w.Timely
  down : w.handle = .stopped → w.alive = false

/-- A course comes to what an order gave. -/
structure Follows (w : Worker) (hs : List Happening)
    (given : Worker × List Happening × List Callback) : Prop where
  course : w.course? hs = some given.1
  told : hs.filter (·.told) = given.2.1
  done : w.completed hs = given.2.2

section

variable {w v u : Worker} {m : Move} {ms : List Move} {hs more : List Happening}

theorem Follows.append {told told' : List Happening} {done done' : List Callback}
    (hv : w.Follows hs (v, told, done)) (hu : v.Follows more (u, told', done')) :
    w.Follows (hs ++ more) (u, told ++ told', done ++ done') := by
  refine ⟨?_, ?_, ?_⟩
  · rw [course?_append, hv.course, Option.bind_some, hu.course]
  · rw [List.filter_append, hv.told, hu.told]
  · rw [completed_append hv.course, hv.done, hu.done]

theorem follows_moves (hm : ∀ m ∈ ms, m.own = true) (hv : w.moves? ms = some v) :
    w.Follows (ms.map .move) (v, [], w.trails ms) := by
  refine ⟨by rw [course?_moves, hv], ?_, completed_moves w ms⟩
  rw [List.filter_eq_nil_iff]
  intro h hh
  obtain ⟨m, hmem, rfl⟩ := List.mem_map.mp hh
  cases m with
  | submit job => cases hm _ hmem
  | _ => exact nofun

/-- A loop that runs by itself: what it does is a course of which its owner is told nothing. -/
theorem follows_run (go : Worker → Bool) (target fuel : Nat) (w : Worker) :
    ∃ ms, (∀ m ∈ ms, m.own = true) ∧ w.moves? ms = some (w.run go target fuel).1 ∧
      w.Follows (ms.map .move) ((w.run go target fuel).1, [], (w.run go target fuel).2) := by
  obtain ⟨ms, hms, hmoves, hdone⟩ := exists_moves go target fuel w []
  refine ⟨ms, hms, hmoves, ?_⟩
  have htrails : (w.run go target fuel).2 = w.trails ms := by
    rw [List.append_nil] at hdone
    exact List.reverse_eq_iff.mpr hdone
  rw [htrails]
  exact follows_moves hms hmoves

theorem follows_move (h : w.move? m = some v) :
    w.Follows [.move m] (v, [Happening.move m].filter (·.told), w.trail m) :=
  ⟨by simp [course?, meet?, h], rfl, by simp [completed, ending, meet?, h]⟩

theorem follows_returned (h : w.handle = .stopped) (hdown : w.alive = false) :
    w.Follows [.returned] (w, [.returned], []) :=
  ⟨by simp [course?, meet?, h, hdown], rfl, by simp [completed, ending, meet?, h, hdown]⟩

theorem follows_refused {why : Rejected} (job : Job) (h : w.refusal? = some why) :
    w.Follows [.refused job why] (w, [.refused job why], []) :=
  ⟨by simp [course?, meet?, h], rfl, by simp [completed, ending, meet?, h]⟩

theorem Settled.follows_submit (hw : w.Settled) (job : Job) :
    ∃ hs, w.Follows hs (w.obey (.submit job)) ∧ (w.obey (.submit job)).1.Settled := by
  by_cases hheld : w.handle = .held
  · obtain ⟨ms, hms, hmoves, hroom⟩ := follows_run (fun w => w.alive && queueDepth ≤ w.queue.length)
      (w.now + w.remaining) (w.movesUntil (w.now + w.remaining)) w
    change w.moves? ms = some w.makeRoom.1 at hmoves
    change w.Follows (ms.map .move) (w.makeRoom.1, [], w.makeRoom.2) at hroom
    have hheld' : w.makeRoom.1.handle = .held := (handle_moves? hms hmoves).trans hheld
    have htimely := timely_moves? hw.timely hmoves
    have hspace : w.makeRoom.1.alive = true → w.makeRoom.1.queue.length < queueDepth := by
      simpa [full] using not_full_of_makeRoom hw.timely hheld
    cases halive : w.makeRoom.1.alive with
    | true =>
      have hmove : w.makeRoom.1.move? (.submit job) =
          some { w.makeRoom.1 with queue := w.makeRoom.1.queue ++ [job] } := by
        simp [move?, hheld', halive, hspace halive]
      have hobey : w.obey (.submit job) =
          ({ w.makeRoom.1 with queue := w.makeRoom.1.queue ++ [job] },
            [.move (.submit job)], w.makeRoom.2) := by
        simp [obey, submit, hheld, hmove]
      have hcourse := hroom.append (follows_move hmove)
      simp only [trail, List.append_nil] at hcourse
      rw [hobey]
      refine ⟨_, hcourse, (moves_of_move? hmove).timely htimely, fun h => ?_⟩
      cases hheld'.symm.trans h
    | false =>
      have hmove : w.makeRoom.1.move? (.submit job) = none := by simp [move?, halive]
      have hobey : w.obey (.submit job) = (w.makeRoom.1, [.refused job .exited], w.makeRoom.2) := by
        simp [obey, submit, hheld, hmove]
      have hrefusal : w.makeRoom.1.refusal? = some .exited := by simp [refusal?, hheld', halive]
      have hcourse := hroom.append (follows_refused job hrefusal)
      rw [List.append_nil] at hcourse
      rw [hobey]
      exact ⟨_, hcourse, htimely, fun _ => halive⟩
  · have hobey : w.obey (.submit job) = (w, [.refused job .notRunning], []) := by
      simp [obey, submit, hheld]
    have hrefusal : w.refusal? = some .notRunning := by simp [refusal?, hheld]
    rw [hobey]
    exact ⟨_, follows_refused job hrefusal, hw⟩

theorem Settled.follows_pass (hw : w.Settled) (ms : Nat) :
    ∃ hs, w.Follows hs (w.obey (.pass ms)) ∧ (w.obey (.pass ms)).1.Settled := by
  obtain ⟨moves, hown, hmoves, hrun⟩ :=
    follows_run (fun _ => true) (w.now + ms) (w.movesUntil (w.now + ms)) w
  refine ⟨_, hrun, timely_moves? hw.timely hmoves, fun h => ?_⟩
  have hstopped : w.handle = .stopped := (handle_moves? hown hmoves).symm.trans h
  rw [← course?_moves] at hmoves
  exact (down_of_course? hmoves (hw.down hstopped)).1

theorem run_stopped (h : w.handle = .held) :
    run { w with handle := .stopped } alive (w.now + w.remaining) 5 = (w.stop.1, w.stop.2.1) := by
  simp [stop, move?, h, remaining]

/-- A worker that is told to stop has ended when its owner has waited for it. -/
theorem ended_of_stop (hw : w.Timely) (h : w.handle = .held) : w.stop.1.alive = false := by
  have htimely : Timely { w with handle := .stopped } := (Moves.stop h).timely hw
  have hended : (run { w with handle := .stopped } alive (w.now + w.remaining) 5).1.alive = false :=
    ended_of_run htimely (by decide : Handle.stopped ≠ .held)
  rwa [run_stopped h] at hended

theorem Settled.follows_stop (hw : w.Settled) :
    ∃ hs, w.Follows hs (w.obey .stop) ∧ (w.obey .stop).1.Settled := by
  by_cases hheld : w.handle = .held
  · have hmove : w.move? .stop = some { w with handle := .stopped } := by simp [move?, hheld]
    have hobey : w.obey .stop = (w.stop.1, [.returned], w.stop.2.1) := by simp [obey, hheld]
    obtain ⟨ms, hms, hmoves, hrun⟩ :=
      follows_run alive (w.now + w.remaining) 5 { w with handle := .stopped }
    rw [run_stopped hheld] at hmoves hrun
    have htimely := timely_moves? ((moves_of_move? hmove).timely hw.timely) hmoves
    have hstopped : w.stop.1.handle = .stopped := handle_moves? hms hmoves
    have hdown := ended_of_stop hw.timely hheld
    have hcourse := (follows_move hmove).append (hrun.append (follows_returned hstopped hdown))
    rw [List.append_nil] at hcourse
    rw [hobey]
    exact ⟨_, hcourse, htimely, fun _ => hdown⟩
  · have hmove : w.move? .stop = none := by simp [move?, hheld]
    have hobey : w.obey .stop = (w, if w.handle = .dropped then [] else [.returned], []) := by
      simp [obey, stop, hmove]
    rw [hobey]
    cases hhandle : w.handle with
    | held => exact absurd hhandle hheld
    | dropped => exact ⟨[], ⟨rfl, rfl, rfl⟩, hw⟩
    | stopped => exact ⟨_, follows_returned hhandle (hw.down hhandle), hw⟩

theorem Settled.follows (hw : w.Settled) (o : Order) :
    ∃ hs, w.Follows hs (w.obey o) ∧ (w.obey o).1.Settled := by
  cases o with
  | submit job => exact hw.follows_submit job
  | pass ms => exact hw.follows_pass ms
  | stop => exact hw.follows_stop
  | drop =>
    refine ⟨[.move .drop], ⟨rfl, rfl, rfl⟩, (Moves.drop).timely hw.timely, nofun⟩

theorem Settled.follows_all (hw : w.Settled) (orders : List Order) :
    ∃ hs, w.Follows hs (w.obeyAll orders) := by
  induction orders generalizing w with
  | nil => exact ⟨[], rfl, rfl, rfl⟩
  | cons o rest ih =>
    obtain ⟨hs, hfirst, hsettled⟩ := hw.follows o
    obtain ⟨more, hrest⟩ := ih hsettled
    exact ⟨_, hfirst.append hrest⟩

end

/-- Jobs run in the order in which they were accepted, one callback at a time, and the shutdown is
the last callback unless one crashed, whatever the loop chooses and whatever its owner does. What a
worker does on the orders of its owner is one such course. -/
theorem loop_disciplined {now interval : Nat} {w₀ : Worker} (h₀ : start? now interval = some w₀) :
    (∀ {hs w}, w₀.course? hs = some w →
      w₀.Disciplined hs ∧ (.move .stop ∈ hs → w.refusal? = some .notRunning)) ∧
    ∀ orders, ∃ hs, w₀.Follows hs (w₀.obeyAll orders) := by
  constructor
  · intro hs w hw
    refine ⟨(kept_nil h₀).disciplined hw, fun hstop => ?_⟩
    obtain ⟨pre, post, rfl⟩ := List.append_of_mem hstop
    rw [course?_append] at hw
    obtain ⟨u, -, hw⟩ := Option.bind_eq_some_iff.mp hw
    obtain ⟨v, hv, hw⟩ := Option.bind_eq_some_iff.mp hw
    have hgone : v.handle ≠ .held := by
      cases moves_of_meet? hv
      exact nofun
    simp [refusal?, (let_go_of_course? hw hgone).1]
  · have hsettled : w₀.Settled := by
      refine ⟨timely_of_start? h₀, fun h => ?_⟩
      obtain ⟨-, rfl⟩ := eq_of_start? h₀
      cases h
    exact hsettled.follows_all

/-- Stopped in the middle of a job, a loop may still run the job that waits before it shuts down. -/
theorem loop_disciplined_of_stopped_midway :
    let w₀ : Worker := { interval := 10, now := 0, deadline := 10 }
    let a : Job := { label := "a", takes := 3 }
    let b : Job := { label := "b" }
    let hs : List Happening :=
      [.move (.submit a), .move (.submit b), .move (.begin (.run a) 3), .move .stop,
        .refused b .notRunning, .move (.pass 3), .move .finish, .move (.begin (.run b) 0),
        .move .finish, .move (.begin .shutdown 0), .move .finish, .returned]
    start? 0 10 = some w₀ ∧ ran hs = [a, b] ∧ w₀.Disciplined hs ∧
      (∃ w, w₀.course? hs = some w ∧ w.refusal? = some .notRunning) ∧
      ∃ hs, w₀.Follows hs (w₀.obeyAll [.submit a, .pass 1, .stop, .submit b]) := by
  intro w₀ a b hs
  have hstart : start? 0 10 = some w₀ := by decide
  obtain ⟨hcourse, horders⟩ := loop_disciplined hstart
  have hsome : (w₀.course? hs).isSome = true := by decide
  obtain ⟨w, hw⟩ := Option.isSome_iff_exists.mp hsome
  obtain ⟨hdisciplined, hrefused⟩ := hcourse hw
  exact ⟨hstart, by decide, hdisciplined, ⟨w, hw, hrefused (by decide)⟩, horders _⟩

end Worker
end Roster
