import Directory.Service.Basic

namespace Directory.Service

/-! # Histories

What can happen to a running service, one event after the other.  A state of the
naming contexts is reachable when some history leads to it from the start. -/

inductive Event where
  /-- An entry is kept without asking. -/
  | seed (entry : Entry)
  /-- A caller, named by a text or anonymous, has a command carried out. -/
  | call (principal? : Option Text) (mode? : Option ReferralMode) (now : Instant)
    (command : Command)

/-- What an event answers. -/
inductive Reply where
  | seeded (answer : Except Error Bool)
  | answered (answer : Except Error Response)

/-- One event: its reply and the naming contexts after it. -/
def step (service : Service) (contexts : NamingContexts) : Event → Reply × NamingContexts
  | .seed entry =>
    let (answer, changed) := service.seed contexts entry
    (.seeded answer, changed)
  | .call principal? mode? now command =>
    match service.session principal? mode? with
    | .error refusal => (.answered (.error refusal), contexts)
    | .ok session =>
      let (answer, changed) := service.run session now contexts command
      (.answered answer, changed)

/-- The naming contexts after a history. -/
def after (service : Service) (contexts : NamingContexts) (events : List Event) : NamingContexts :=
  events.foldl (fun current event => (service.step current event).2) contexts

/-- The replies to the events of a history, in order. -/
def replies (service : Service) : NamingContexts → List Event → List Reply
  | _, [] => []
  | contexts, event :: rest =>
    let (reply, changed) := service.step contexts event
    reply :: replies service changed rest

/-- The states of the naming contexts that a service built from settings can get into. -/
def Reachable (config : Config) (service : Service) (contexts : NamingContexts) : Prop :=
  ∃ start events, ofConfig config = .ok (service, start) ∧ contexts = service.after start events

theorem after_append (service : Service) (contexts : NamingContexts) (first later : List Event) :
    service.after contexts (first ++ later) = service.after (service.after contexts first) later :=
  List.foldl_append

theorem Reachable.atStart {config : Config} {service : Service} {start : NamingContexts}
    (started : ofConfig config = .ok (service, start)) : Reachable config service start :=
  ⟨start, [], started, rfl⟩

end Directory.Service
