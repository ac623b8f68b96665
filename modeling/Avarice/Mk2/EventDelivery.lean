import Avarice.Mk2.Events

/-!
# Delivery of events

Frames are read by `recv` while a command waits for its reply, and by
`pollDevice` in between.  Only `pollDevice` handles events, and `recv` throws
away those it reads.
-/

namespace Avarice.Mk2

/-- The host, the frames it has not read yet, and a record of the events that
have arrived and of those that `pollDevice` has handled. -/
structure Link where
  host : Host
  unread : List Reception
  arrived : List Frame
  handled : List Frame
  deriving DecidableEq, Repr

def Link.start : Link where
  host := ⟨0, .idle⟩
  unread := []
  arrived := []
  handled := []

/-- Calls of the host, what arrives, and the rounds of `recv` and of the poll
loop in `main`. -/
inductive LinkAction where
  | call (command : List UInt8) (retryOnTimeout : Bool)
  | arrive (f : Frame)
  | arriveGarbled
  | receive
  | poll
  deriving DecidableEq, Repr

def Outcome.host (before : Host) : Outcome → Host
  | .receiving => before
  | .resent host _ => host
  | .returned host _ _ => host
  | .abandoned => { before with activity := .idle }

def Link.apply (s : Link) : LinkAction → Link
  | .call command retryOnTimeout =>
      if s.host.activity = .idle then
        { s with host := (s.host.call command retryOnTimeout).1 }
      else s
  | .arrive f =>
      if f.Fits then
        { s with
          unread := s.unread ++ [.frame f]
          arrived := s.arrived ++ (Reception.frame f).eventFrame?.toList }
      else s
  | .arriveGarbled => { s with unread := s.unread ++ [.nothing] }
  | .receive =>
      if s.host.activity = .idle then s
      else
        { s with
          host := (s.host.receive (s.unread.headD .nothing)).host s.host
          unread := s.unread.tail }
  | .poll =>
      if s.host.activity = .idle then
        { s with
          unread := s.unread.tail
          handled := s.handled ++ (s.unread.head?.bind Reception.eventFrame?).toList }
      else s

def Link.waitingEvents (s : Link) : List Frame :=
  s.unread.filterMap Reception.eventFrame?

/-- Every event that has arrived has been handled or is still to be read, in
the order of their arrival. -/
def Link.Delivers (s : Link) : Prop :=
  s.handled ++ s.waitingEvents = s.arrived

instance (s : Link) : Decidable s.Delivers :=
  inferInstanceAs (Decidable (_ = _))

/-- The round does not read an event while a command waits for its reply. -/
def NoEventInReply (s : Link) (action : LinkAction) : Prop :=
  action = .receive → s.host.activity ≠ .idle →
    s.unread.head?.bind Reception.eventFrame? = none

instance (s : Link) (action : LinkAction) : Decidable (NoEventInReply s action) :=
  inferInstanceAs (Decidable (_ → _ → _))

def Link.Loses (s : Link) : Prop :=
  s.handled.length + s.waitingEvents.length < s.arrived.length

/-! ## One action -/

theorem filterMap_head_tail (unread : List Reception) :
    unread.filterMap Reception.eventFrame? =
      (unread.head?.bind Reception.eventFrame?).toList ++
        unread.tail.filterMap Reception.eventFrame? := by
  cases unread with
  | nil => rfl
  | cons r rest =>
      cases event : r.eventFrame? <;> simp [event]

theorem waitingEvents_append (unread : List Reception) (r : Reception) :
    (unread ++ [r]).filterMap Reception.eventFrame? =
      unread.filterMap Reception.eventFrame? ++ r.eventFrame?.toList := by
  rw [List.filterMap_append]
  cases event : r.eventFrame? <;> simp [event]

theorem apply_balance (s : Link) {action : LinkAction} (safe : NoEventInReply s action) :
    ∃ added, (s.apply action).arrived = s.arrived ++ added ∧
      (s.apply action).handled ++ (s.apply action).waitingEvents =
        s.handled ++ s.waitingEvents ++ added := by
  have same : ∃ added, s.arrived = s.arrived ++ added ∧
      s.handled ++ s.waitingEvents = s.handled ++ s.waitingEvents ++ added :=
    ⟨[], (List.append_nil _).symm, (List.append_nil _).symm⟩
  cases action with
  | call command retryOnTimeout =>
      by_cases idle : s.host.activity = .idle
      · simp only [Link.apply, if_pos idle]
        exact same
      · simp only [Link.apply, if_neg idle]
        exact same
  | arrive f =>
      by_cases fits : f.Fits
      · simp only [Link.apply, if_pos fits]
        refine ⟨_, rfl, ?_⟩
        simp only [Link.waitingEvents]
        rw [waitingEvents_append, List.append_assoc]
      · simp only [Link.apply, if_neg fits]
        exact same
  | arriveGarbled =>
      refine ⟨[], (List.append_nil _).symm, ?_⟩
      simp [Link.apply, Link.waitingEvents, Reception.eventFrame?]
  | receive =>
      by_cases idle : s.host.activity = .idle
      · simp only [Link.apply, if_pos idle]
        exact same
      · simp only [Link.apply, if_neg idle]
        refine ⟨[], (List.append_nil _).symm, ?_⟩
        simp only [Link.waitingEvents]
        rw [filterMap_head_tail s.unread, safe rfl idle, List.append_nil]
        rfl
  | poll =>
      by_cases idle : s.host.activity = .idle
      · simp only [Link.apply, if_pos idle]
        refine ⟨[], (List.append_nil _).symm, ?_⟩
        simp only [Link.waitingEvents]
        rw [filterMap_head_tail s.unread, List.append_nil, List.append_assoc]
      · simp only [Link.apply, if_neg idle]
        exact same

theorem delivers_apply {s : Link} {action : LinkAction} (delivers : s.Delivers)
    (safe : NoEventInReply s action) : (s.apply action).Delivers := by
  obtain ⟨added, arrived, balance⟩ := apply_balance s safe
  rw [Link.Delivers, balance, arrived, delivers]

theorem apply_receive_lengths {s : Link} {action : LinkAction} (lost : ¬ NoEventInReply s action) :
    (s.apply action).arrived = s.arrived ∧
      (s.apply action).handled.length + (s.apply action).waitingEvents.length + 1 =
        s.handled.length + s.waitingEvents.length := by
  rw [NoEventInReply, Classical.not_imp, Classical.not_imp] at lost
  obtain ⟨rfl, receiving, event⟩ := lost
  obtain ⟨f, read⟩ := Option.ne_none_iff_exists'.mp event
  simp only [Link.apply, if_neg receiving, Link.waitingEvents]
  rw [filterMap_head_tail s.unread, read]
  simp
  omega

theorem loses_apply {s : Link} (loses : s.Loses) (action : LinkAction) :
    (s.apply action).Loses := by
  unfold Link.Loses at loses ⊢
  by_cases safe : NoEventInReply s action
  · obtain ⟨added, arrived, balance⟩ := apply_balance s safe
    have lengths := congrArg List.length balance
    rw [arrived]
    simp only [List.length_append] at lengths ⊢
    omega
  · obtain ⟨arrived, fewer⟩ := apply_receive_lengths safe
    rw [arrived]
    omega

theorem not_delivers_of_loses {s : Link} (loses : s.Loses) : ¬ s.Delivers := by
  intro delivers
  have lengths := congrArg List.length delivers
  rw [List.length_append] at lengths
  exact absurd loses (Nat.not_lt.mpr (Nat.le_of_eq lengths.symm))

/-! ## Runs -/

theorem loses_run {s : Link} (loses : s.Loses) (actions : List LinkAction) :
    (Transition.run Link.apply s actions).Loses := by
  induction actions generalizing s with
  | nil => exact loses
  | cons action rest inductionHypothesis => exact inductionHypothesis (loses_apply loses action)

theorem delivers_run_iff {s : Link} (delivers : s.Delivers) (actions : List LinkAction) :
    (Transition.run Link.apply s actions).Delivers ↔
      Transition.Along Link.apply NoEventInReply s actions := by
  induction actions generalizing s with
  | nil => exact ⟨fun _ => trivial, fun _ => delivers⟩
  | cons action rest inductionHypothesis =>
      by_cases safe : NoEventInReply s action
      · rw [Transition.run_cons, inductionHypothesis (delivers_apply delivers safe)]
        exact ⟨fun later => ⟨safe, later⟩, fun along => along.2⟩
      · obtain ⟨arrived, fewer⟩ := apply_receive_lengths safe
        have loses : (s.apply action).Loses := by
          have lengths := congrArg List.length delivers
          rw [List.length_append] at lengths
          rw [Link.Loses, arrived]
          omega
        constructor
        · exact fun later => absurd later (not_delivers_of_loses (loses_run loses rest))
        · exact fun along => absurd along.1 safe

theorem run_polls {s : Link} (idle : s.host.activity = .idle) :
    (Transition.run Link.apply s (List.replicate s.unread.length .poll)).handled =
      s.handled ++ s.waitingEvents := by
  induction unread : s.unread generalizing s with
  | nil => simp [Link.waitingEvents, unread]
  | cons r rest inductionHypothesis =>
      have polled : s.apply .poll =
          { s with
            unread := rest
            handled := s.handled ++ r.eventFrame?.toList } := by
        simp [Link.apply, idle, unread]
      rw [List.length_cons, List.replicate_succ, Transition.run_cons, polled]
      have later := @inductionHypothesis
        { s with
          unread := rest
          handled := s.handled ++ r.eventFrame?.toList } idle rfl
      rw [later]
      simp only [Link.waitingEvents, unread]
      rw [filterMap_head_tail (r :: rest), List.append_assoc]
      rfl

/-- After any run, all events that have arrived are handled or still to be
read, and further polls handle all of them in order, exactly when no event has
been read in place of a reply. -/
theorem events_delivered_iff (actions : List LinkAction) :
    let s := Transition.run Link.apply .start actions
    (s.Delivers ↔ Transition.Along Link.apply NoEventInReply .start actions) ∧
      (s.host.activity = .idle →
        ((Transition.run Link.apply s (List.replicate s.unread.length .poll)).handled = s.arrived ↔
          Transition.Along Link.apply NoEventInReply .start actions)) := by
  intro s
  have delivered := delivers_run_iff (show Link.start.Delivers from rfl) actions
  refine ⟨delivered, fun idle => ?_⟩
  rw [run_polls idle]
  exact delivered

/-- A break that arrives before the reply to a command. -/
theorem break_lost :
    let s := Transition.run Link.apply .start
      [.call [0x05] true, .arrive ⟨eventSeqno, [evtBreak]⟩, .arrive ⟨0, [0x80]⟩, .receive,
        .receive]
    s.host.activity = .idle ∧ s.arrived = [⟨eventSeqno, [evtBreak]⟩] ∧
      (Transition.run Link.apply s (List.replicate s.unread.length .poll)).handled ≠ s.arrived ∧
        ¬ s.Delivers := by
  decide

end Avarice.Mk2
