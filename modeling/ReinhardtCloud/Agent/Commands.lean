import Mathlib.Data.List.Flatten
import Mathlib.Data.List.Perm.Subperm
import ReinhardtCloud.Grpc.Ownership

/-!
# Commands from the control plane to the agents

Library `Agent`. The two ends of an agent stream: the task of `agent_stream_authenticated` that
forwards commands (`crates/reinhardt-cloud-grpc/src/services/cluster_agent.rs:353–362`) and
`run_agent` with `handle_command` of the agent program
(`crates/reinhardt-cloud-agent/src/main.rs:105–373`), around the control plane of `Grpc`. Messages
have the fields of the domain types; what a command does to a cluster is its result.
-/

namespace ReinhardtCloud.Agent

open ReinhardtCloud.Base ReinhardtCloud.Grpc

/-! ## Handling one command -/

/-- `AgentEvent`, `crates/reinhardt-cloud-types/src/agent.rs:99–130`. -/
inductive AgentEvent where
  | connected (agentId : Uuid) (clusterName : String) (timestamp : DateTime)
  | deployStatus (projectName : String) (success : Bool) (message : String) (timestamp : DateTime)
  | heartbeat (agentId : Uuid) (timestamp : DateTime)
  | error (message : String) (timestamp : DateTime)
  | commandStatus (projectName commandType : String) (success : Bool) (message : String)
      (timestamp : DateTime)

/-- The events by which a command is answered. -/
def AgentEvent.isStatus : AgentEvent → Bool
  | .deployStatus .. | .commandStatus .. => true
  | .connected .. | .heartbeat .. | .error .. => false

/-- `domain_command_to_proto`, `cluster_agent.rs:33–79`: the oneof of the message is set. -/
def domainCommandToProto (cmd : AgentCommand) : Option AgentCommand := some cmd

/-- The success and the message of a status. -/
def statusOf (projectName commandType applied failed : String) (result : Except String Unit)
    (now : DateTime) : AgentEvent :=
  match result with
  | .ok () => .commandStatus projectName commandType true applied now
  | .error e => .commandStatus projectName commandType false (failed ++ ": " ++ e) now

/-- `handle_command`, `main.rs:185–373`: the event that it sends. -/
def handleCommand (command : Option AgentCommand) (result : Except String Unit) (now : DateTime) :
    Option AgentEvent :=
  command.map fun command ↦
    match command with
    | .deploy projectName _ _ => .deployStatus projectName false
        ("Legacy Deploy commands are disabled; " ++
          "use ApplyProject for operator-validated deployments") now
    | .rollback projectName _ =>
      statusOf projectName "rollback" "Rollback applied" "Rollback failed" result now
    | .scale projectName _ =>
      statusOf projectName "scale" "Scale applied" "Scale failed" result now
    | .restart projectName =>
      statusOf projectName "restart" "Restart applied" "Restart failed" result now
    | .applyProject projectName _ =>
      statusOf projectName "apply_project" "Project applied" "Project apply failed" result now
    | .applyGitCredentialsSecret projectName .. =>
      statusOf projectName "apply_git_credentials_secret" "Git credentials Secret applied"
        "Git credentials Secret apply failed" result now

/-- The results that a command can have: `execute_scale` refuses more replicas than an `i32`,
`main.rs:493–504`. -/
def canResult (command : AgentCommand) (result : Except String Unit) : Bool :=
  match command, result with
  | .scale _ replicas, .ok () => decide (replicas.toNat ≤ 2 ^ 31 - 1)
  | _, _ => true

/-! ## Streams -/

/-- A command that the agent has handled. -/
structure Handled where
  command : AgentCommand
  result : Except String Unit
  now : DateTime

/-- The event that answers it. -/
def Handled.status (handled : Handled) : Option AgentEvent :=
  handleCommand (domainCommandToProto handled.command) handled.result handled.now

/-- Where the loop over the command stream is, `main.rs:158–168`. -/
inductive AgentLoop where
  | waiting
  | executing (command : AgentCommand)
  | answering (event : AgentEvent)
  | ended

/-- Both directions of a stream: the command that the task has received from the registry and is
about to send, the channel behind it and the network; the loop of the agent; and the channel of its
events, the network and the events that have arrived. A severed stream has lost the receivers of
both channels. `handled` is history only. -/
structure Link where
  forwarding : Option AgentCommand
  outTx : List AgentCommand
  downstream : List AgentCommand
  loop : AgentLoop
  handled : List Handled
  eventTx : List AgentEvent
  upstream : List AgentEvent
  arrived : List AgentEvent
  severed : Bool

/-- A stream whose first event has been read. -/
def Link.opened (arrived : List AgentEvent) : Link :=
  ⟨none, [], [], .waiting, [], [], [], arrived, false⟩

/-- The control plane with its streams. -/
structure Fleet where
  control : ControlPlane
  links : ChannelId → Link

/-- No connection. -/
def Fleet.init : Fleet := ⟨.init, fun _ ↦ .opened []⟩

/-- Overwrite one stream. -/
def Fleet.setLink (s : Fleet) (c : ChannelId) (link : Link) : Fleet :=
  { s with links := Function.update s.links c link }

/-- The steps of the control plane and of the streams. -/
inductive FleetAction where
  | control (a : Action)
  /-- An agent opens a stream: its first event is read. -/
  | connect (clusterId : Uuid) (info : AgentInfo) (now : DateTime)
  /-- `command_rx.recv()`. -/
  | forward (c : ChannelId)
  /-- `out_tx.send(Ok(cmd))`. -/
  | push (c : ChannelId)
  | transmit (c : ChannelId)
  /-- `command_stream.next()`. -/
  | take (c : ChannelId)
  | execute (c : ChannelId) (result : Except String Unit) (now : DateTime)
  /-- `event_tx.send(..)` at the end of `handle_command`. -/
  | answer (c : ChannelId)
  /-- The heartbeat task, `main.rs:139–156`. -/
  | beat (c : ChannelId) (now : DateTime)
  | upload (c : ChannelId)
  | arrive (c : ChannelId)
  /-- The connection breaks. -/
  | sever (c : ChannelId)
  /-- The forwarding task ends as its send fails, and drops the receiver. -/
  | stopForwarding (c : ChannelId)
  /-- The agent's loop ends. -/
  | stopAgent (c : ChannelId)

/-- The steps of the control plane that are no steps of a stream. -/
def ownStep : Action → Bool
  | .announce .. | .receive _ | .dropReceiver _ => false
  | _ => true

/-- Capacity of `out_tx` and `event_tx`, `cluster_agent.rs:325` and `main.rs:121`. -/
def streamCapacity : Nat := 64

/-- Execute one step; absent when the step is not enabled. -/
def fleetStep (s : Fleet) : FleetAction → Option Fleet
  | .control a =>
    if ownStep a then (step s.control a).map fun control ↦ { s with control } else none
  | .connect clusterId info now =>
    (step s.control (.announce clusterId info now)).map fun control ↦
      { (s.setLink s.control.nextChannel
          (.opened [.connected info.agentId info.clusterName info.lastSeen])) with control }
  | .forward c =>
    match (s.links c).forwarding, (s.control.connections c).bind (·.queue.head?) with
    | none, some command =>
      (step s.control (.receive c)).map fun control ↦
        { (s.setLink c { s.links c with forwarding := some command }) with control }
    | _, _ => none
  | .push c =>
    match (s.links c).forwarding with
    | some command =>
      if !(s.links c).severed && decide ((s.links c).outTx.length < streamCapacity) then
        some (s.setLink c { s.links c with
          forwarding := none, outTx := (s.links c).outTx ++ [command] })
      else none
    | none => none
  | .transmit c =>
    match (s.links c).severed, (s.links c).outTx with
    | false, command :: rest => some (s.setLink c { s.links c with
        outTx := rest, downstream := (s.links c).downstream ++ [command] })
    | _, _ => none
  | .take c =>
    match (s.links c).loop, (s.links c).downstream with
    | .waiting, command :: rest => some (s.setLink c { s.links c with
        loop := .executing command, downstream := rest })
    | _, _ => none
  | .execute c result now =>
    match (s.links c).loop with
    | .executing command =>
      if canResult command result then
        some (s.setLink c { s.links c with
          loop := (handleCommand (domainCommandToProto command) result now).elim .waiting .answering
          handled := (s.links c).handled ++ [⟨command, result, now⟩] })
      else none
    | _ => none
  | .answer c =>
    match (s.links c).loop with
    | .answering event =>
      -- a send that fails is only logged
      if (s.links c).severed then some (s.setLink c { s.links c with loop := .waiting })
      else if (s.links c).eventTx.length < streamCapacity then
        some (s.setLink c { s.links c with
          loop := .waiting, eventTx := (s.links c).eventTx ++ [event] })
      else none
    | _ => none
  | .beat c now =>
    match s.control.connections c with
    | some conn =>
      if !(s.links c).severed && decide ((s.links c).eventTx.length < streamCapacity) then
        some (s.setLink c { s.links c with
          eventTx := (s.links c).eventTx ++ [.heartbeat conn.entry.info.agentId now] })
      else none
    | none => none
  | .upload c =>
    match (s.links c).severed, (s.links c).eventTx with
    | false, event :: rest => some (s.setLink c { s.links c with
        eventTx := rest, upstream := (s.links c).upstream ++ [event] })
    | _, _ => none
  | .arrive c =>
    match (s.links c).upstream with
    | event :: rest => some (s.setLink c { s.links c with
        upstream := rest, arrived := (s.links c).arrived ++ [event] })
    | [] => none
  | .sever c =>
    match s.control.connections c with
    | some _ => some (s.setLink c { s.links c with severed := true })
    | none => none
  | .stopForwarding c =>
    if (s.links c).severed && (s.links c).forwarding.isSome then
      (step s.control (.dropReceiver c)).map fun control ↦ { s with control }
    else none
  | .stopAgent c =>
    match (s.links c).severed, (s.links c).loop with
    | true, .waiting => some (s.setLink c { s.links c with loop := .ended })
    | _, _ => none

/-! ## Where commands and events are -/

/-- The commands that were enqueued on a channel, in order. -/
def deliveredTo (s : ControlPlane) (c : ChannelId) : List AgentCommand :=
  ((s.delivered.filter fun d ↦ d.channel = c).map (·.command)).reverse

/-- The commands that wait in a channel. -/
def queueOf (s : ControlPlane) (c : ChannelId) : List AgentCommand :=
  (s.connections c).elim [] (·.queue)

/-- The command that the agent executes. -/
def AgentLoop.command : AgentLoop → List AgentCommand
  | .executing command => [command]
  | _ => []

/-- The event that the agent is about to send. -/
def AgentLoop.event : AgentLoop → List AgentEvent
  | .answering event => [event]
  | _ => []

/-- The commands received from the registry, in order: handled, executed, on the network, in the
channel, and in the hand of the task. -/
def Link.received (link : Link) : List AgentCommand :=
  link.handled.map (·.command) ++ link.loop.command ++ link.downstream ++ link.outTx ++
    link.forwarding.toList

/-- The events sent by the agent, in order. -/
def Link.events (link : Link) : List AgentEvent := link.arrived ++ link.upstream ++ link.eventTx

/-- Every command enqueued for a stream is in one place, in the order in which they were enqueued:
handled, under way, or waiting. Each handled command was answered by at most one status, in the same
order, and by exactly one while the stream is not severed, but for the one that is about to be. No
command for more replicas than an `i32` succeeded. -/
structure Link.Faithful (link : Link) (delivered queue : List AgentCommand) : Prop where
  places : delivered = link.received ++ queue
  answers : (link.events.filter AgentEvent.isStatus ++ link.loop.event).Sublist
    (link.handled.filterMap Handled.status)
  unbroken : link.severed = false → link.events.filter AgentEvent.isStatus ++ link.loop.event =
    link.handled.filterMap Handled.status
  each : (link.handled.filterMap Handled.status).length = link.handled.length
  results : ∀ handled ∈ link.handled, canResult handled.command handled.result = true

/-! ## What each step does -/

/-- The steps of one stream, apart from receiving from the registry. -/
inductive LinkMove (link : Link) : Link → Prop
  | push (command : AgentCommand) (h : link.forwarding = some command) :
      LinkMove link { link with forwarding := none, outTx := link.outTx ++ [command] }
  | transmit (command : AgentCommand) (rest : List AgentCommand)
      (h : link.outTx = command :: rest) :
      LinkMove link { link with outTx := rest, downstream := link.downstream ++ [command] }
  | take (command : AgentCommand) (rest : List AgentCommand) (hloop : link.loop = .waiting)
      (h : link.downstream = command :: rest) :
      LinkMove link { link with loop := .executing command, downstream := rest }
  | execute (command : AgentCommand) (result : Except String Unit) (now : DateTime)
      (hloop : link.loop = .executing command) (h : canResult command result = true) :
      LinkMove link { link with
        loop := (handleCommand (domainCommandToProto command) result now).elim .waiting .answering
        handled := link.handled ++ [⟨command, result, now⟩] }
  | answer (event : AgentEvent) (hloop : link.loop = .answering event) :
      LinkMove link { link with loop := .waiting, eventTx := link.eventTx ++ [event] }
  | lose (event : AgentEvent) (hloop : link.loop = .answering event)
      (hsevered : link.severed = true) : LinkMove link { link with loop := .waiting }
  | beat (agentId : Uuid) (now : DateTime) :
      LinkMove link { link with eventTx := link.eventTx ++ [.heartbeat agentId now] }
  | upload (event : AgentEvent) (rest : List AgentEvent) (h : link.eventTx = event :: rest) :
      LinkMove link { link with eventTx := rest, upstream := link.upstream ++ [event] }
  | arrive (event : AgentEvent) (rest : List AgentEvent) (h : link.upstream = event :: rest) :
      LinkMove link { link with upstream := rest, arrived := link.arrived ++ [event] }
  | sever : LinkMove link { link with severed := true }
  | stop (hsevered : link.severed = true) (hloop : link.loop = .waiting) :
      LinkMove link { link with loop := .ended }

/-- What each step can do. -/
inductive FleetStep (s : Fleet) (b : FleetAction) : Fleet → Prop
  | control (a : Action) (control : ControlPlane) (h : Step s.control a control)
      (hreceive : ∀ c, a ≠ .receive c)
      (hlookup : ∀ clusterId command agentId, a = .lookup clusterId command agentId →
        b = .control a) :
      FleetStep s b { s with control }
  | connect (clusterId : Uuid) (info : AgentInfo) (now : DateTime) (control : ControlPlane)
      (h : Step s.control (.announce clusterId info now) control) :
      FleetStep s b { (s.setLink s.control.nextChannel
        (.opened [.connected info.agentId info.clusterName info.lastSeen])) with control }
  | forward (c : ChannelId) (command : AgentCommand) (rest : List AgentCommand) (conn : Connection)
      (hconn : s.control.connections c = some conn) (hqueue : conn.queue = command :: rest)
      (hforwarding : (s.links c).forwarding = none) :
      FleetStep s b { (s.setLink c { s.links c with forwarding := some command }) with
        control := s.control.setConnection c { conn with queue := rest } }
  | move (c : ChannelId) (link : Link) (h : LinkMove (s.links c) link)
      (hopened : s.links c = .opened [] → (s.control.connections c).isSome) :
      FleetStep s b (s.setLink c link)

/-- Inversion of `fleetStep`. -/
theorem fleetStep_cases {s t : Fleet} {a : FleetAction} (h : fleetStep s a = some t) :
    FleetStep s a t := by
  cases a with
  | control a =>
    rw [fleetStep] at h
    split at h
    · next hown =>
      obtain ⟨control, hcontrol, rfl⟩ := Option.map_eq_some_iff.mp h
      apply FleetStep.control a control (step_cases hcontrol)
      · rintro c rfl
        cases hown
      · exact fun _ _ _ _ ↦ rfl
    · cases h
  | connect clusterId info now =>
    rw [fleetStep] at h
    obtain ⟨control, hcontrol, rfl⟩ := Option.map_eq_some_iff.mp h
    exact .connect clusterId info now control (step_cases hcontrol)
  | forward c =>
    rw [fleetStep] at h
    split at h
    · next command hforwarding hhead =>
      obtain ⟨conn, hconn, hqueue⟩ := Option.bind_eq_some_iff.mp hhead
      obtain ⟨rest, hrest⟩ := List.head?_eq_some_iff.mp hqueue
      obtain ⟨control, hcontrol, rfl⟩ := Option.map_eq_some_iff.mp h
      rw [step, hconn] at hcontrol
      dsimp only at hcontrol
      split at hcontrol
      · cases hcontrol
      · obtain rfl := Option.some.inj hcontrol
        rw [hrest]
        exact .forward c command rest conn hconn hrest hforwarding
    · cases h
  | push c =>
    rw [fleetStep] at h
    split at h
    · next command hforwarding =>
      split at h
      · obtain rfl := Option.some.inj h
        apply FleetStep.move c _ (.push command hforwarding)
        intro hopened
        rw [hopened] at hforwarding
        cases hforwarding
      · cases h
    · cases h
  | transmit c =>
    rw [fleetStep] at h
    split at h
    · next command rest hopen hout =>
      obtain rfl := Option.some.inj h
      apply FleetStep.move c _ (.transmit command rest hout)
      intro hopened
      rw [hopened] at hout
      cases hout
    · cases h
  | take c =>
    rw [fleetStep] at h
    split at h
    · next command rest hloop hdown =>
      obtain rfl := Option.some.inj h
      apply FleetStep.move c _ (.take command rest hloop hdown)
      intro hopened
      rw [hopened] at hdown
      cases hdown
    · cases h
  | execute c result now =>
    rw [fleetStep] at h
    split at h
    · next command hloop =>
      split at h
      · next hresult =>
        obtain rfl := Option.some.inj h
        apply FleetStep.move c _ (.execute command result now hloop hresult)
        intro hopened
        rw [hopened] at hloop
        cases hloop
      · cases h
    · cases h
  | answer c =>
    rw [fleetStep] at h
    split at h
    · next event hloop =>
      have hnot : s.links c ≠ .opened [] := by
        intro hopened
        rw [hopened] at hloop
        cases hloop
      split at h
      · next hsevered =>
        obtain rfl := Option.some.inj h
        exact .move c _ (.lose event hloop hsevered) fun hopened ↦ absurd hopened hnot
      · split at h
        · obtain rfl := Option.some.inj h
          exact .move c _ (.answer event hloop) fun hopened ↦ absurd hopened hnot
        · cases h
    · cases h
  | beat c now =>
    rw [fleetStep] at h
    split at h
    · next conn hconn =>
      split at h
      · obtain rfl := Option.some.inj h
        exact .move c _ (.beat _ now) fun _ ↦ by rw [hconn]; rfl
      · cases h
    · cases h
  | upload c =>
    rw [fleetStep] at h
    split at h
    · next event rest hopen hevents =>
      obtain rfl := Option.some.inj h
      apply FleetStep.move c _ (.upload event rest hevents)
      intro hopened
      rw [hopened] at hevents
      cases hevents
    · cases h
  | arrive c =>
    rw [fleetStep] at h
    split at h
    · next event rest hevents =>
      obtain rfl := Option.some.inj h
      apply FleetStep.move c _ (.arrive event rest hevents)
      intro hopened
      rw [hopened] at hevents
      cases hevents
    · cases h
  | sever c =>
    rw [fleetStep] at h
    split at h
    · next conn hconn =>
      obtain rfl := Option.some.inj h
      exact .move c _ .sever fun _ ↦ by rw [hconn]; rfl
    · cases h
  | stopForwarding c =>
    rw [fleetStep] at h
    split at h
    · obtain ⟨control, hcontrol, rfl⟩ := Option.map_eq_some_iff.mp h
      exact .control _ control (step_cases hcontrol) (fun _ he ↦ by cases he)
        fun _ _ _ he ↦ by cases he
    · cases h
  | stopAgent c =>
    rw [fleetStep] at h
    split at h
    · next hsevered hloop =>
      obtain rfl := Option.some.inj h
      apply FleetStep.move c _ (.stop hsevered hloop)
      intro hopened
      rw [hopened] at hsevered
      cases hsevered
    · cases h

/-! ## Every command is in one place -/

/-- Every command is answered by a status. -/
theorem Handled.isStatus_of_status {handled : Handled} {event : AgentEvent}
    (h : handled.status = some event) : event.isStatus = true := by
  have hresult (projectName commandType applied failed : String) :
      (statusOf projectName commandType applied failed handled.result handled.now).isStatus =
        true := by
    cases handled.result with
    | ok u => rfl
    | error e => rfl
  obtain ⟨command, result, now⟩ := handled
  cases command <;> obtain rfl := Option.some.inj h
  · rfl
  all_goals exact hresult _ _ _ _

/-- A stream only moves commands along, and sends one status for each. -/
theorem LinkMove.faithful {link link' : Link} (h : LinkMove link link')
    {delivered queue : List AgentCommand} (hf : link.Faithful delivered queue) :
    link'.Faithful delivered queue := by
  obtain ⟨hplaces, hanswers, hunbroken, heach, hresults⟩ := hf
  rw [Link.received] at hplaces
  rw [Link.events] at hanswers hunbroken
  -- the events a move adds and the statuses it adds are the same
  have hsame {link' : Link} (hhandled : link'.handled = link.handled)
      (hsevered : link'.severed = link.severed)
      (hevents : link'.events.filter AgentEvent.isStatus ++ link'.loop.event =
        (link.arrived ++ link.upstream ++ link.eventTx).filter AgentEvent.isStatus ++
          link.loop.event) (hplaces : delivered = link'.received ++ queue) :
      link'.Faithful delivered queue := by
    refine ⟨hplaces, ?_, ?_, ?_, ?_⟩
    · rw [hevents, hhandled]
      exact hanswers
    · intro hopen
      rw [hevents, hhandled]
      exact hunbroken (hsevered ▸ hopen)
    · rw [hhandled]
      exact heach
    · rw [hhandled]
      exact hresults
  cases h with
  | push command h =>
    refine hsame rfl rfl rfl ?_
    rw [hplaces, h]
    simp [Link.received]
  | transmit command rest h =>
    refine hsame rfl rfl rfl ?_
    rw [hplaces, h]
    simp [Link.received]
  | take command rest hloop h =>
    rw [hloop] at hplaces
    refine hsame rfl rfl (by rw [hloop]; rfl) ?_
    rw [hplaces, h]
    simp [Link.received, AgentLoop.command]
  | execute command result now hloop h =>
    rw [hloop] at hplaces hanswers hunbroken
    have hstatus : ∃ event, Handled.status ⟨command, result, now⟩ = some event := ⟨_, rfl⟩
    obtain ⟨event, hevent⟩ := hstatus
    have hhandle : handleCommand (domainCommandToProto command) result now = some event := hevent
    rw [hhandle]
    refine ⟨?_, ?_, ?_, ?_, ?_⟩
    · rw [hplaces]
      simp [Link.received, AgentLoop.command]
    · show ((link.arrived ++ link.upstream ++ link.eventTx).filter AgentEvent.isStatus ++
        [event]).Sublist _
      rw [List.filterMap_append, List.filterMap_cons_some hevent, List.filterMap_nil]
      rw [show AgentLoop.event (.executing command) = [] from rfl, List.append_nil] at hanswers
      exact hanswers.append_right [event]
    · intro hopen
      show (link.arrived ++ link.upstream ++ link.eventTx).filter AgentEvent.isStatus ++ [event] = _
      rw [List.filterMap_append, List.filterMap_cons_some hevent, List.filterMap_nil,
        ← hunbroken hopen]
      simp [AgentLoop.event]
    · rw [List.filterMap_append, List.filterMap_cons_some hevent, List.filterMap_nil,
        List.length_append, List.length_append, heach]
      rfl
    · intro handled hhandled
      rcases List.mem_append.mp hhandled with hold | hnew
      · exact hresults handled hold
      · rw [List.mem_singleton.mp hnew]
        exact h
  | answer event hloop =>
    have hstatus : event.isStatus = true := by
      have hmem : event ∈ link.handled.filterMap Handled.status := by
        apply hanswers.subset
        rw [hloop]
        exact List.mem_append_right _ (List.mem_singleton_self event)
      obtain ⟨handled, -, hhandled⟩ := List.mem_filterMap.mp hmem
      exact handled.isStatus_of_status hhandled
    rw [hloop] at hplaces
    refine hsame rfl rfl ?_ hplaces
    rw [hloop]
    simp [Link.events, AgentLoop.event, hstatus]
  | lose event hloop hsevered =>
    rw [hloop] at hplaces hanswers
    refine ⟨hplaces, ?_, (fun hopen ↦ nomatch hsevered.symm.trans hopen), heach, hresults⟩
    show ((link.arrived ++ link.upstream ++ link.eventTx).filter AgentEvent.isStatus ++
      []).Sublist _
    rw [List.append_nil]
    exact (List.sublist_append_left _ _).trans hanswers
  | beat agentId now =>
    refine hsame rfl rfl ?_ hplaces
    simp [Link.events, AgentEvent.isStatus]
  | upload event rest h =>
    refine hsame rfl rfl ?_ hplaces
    rw [h]
    simp [Link.events]
  | arrive event rest h =>
    refine hsame rfl rfl ?_ hplaces
    rw [h]
    simp [Link.events]
  | sever => exact ⟨hplaces, hanswers, (fun hopen ↦ nomatch hopen), heach, hresults⟩
  | stop hsevered hloop =>
    rw [hloop] at hplaces
    exact hsame rfl rfl (by rw [hloop]; rfl) hplaces

/-! ## Runs of the fleet -/

/-- A step of the control plane that receives nothing enqueues at most one command of a channel. -/
theorem queue_cases {s t : ControlPlane} {a : Action} (h : Step s a t) (hw : s.Wf)
    (hreceive : ∀ c, a ≠ .receive c) (c : ChannelId) :
    (queueOf t c = queueOf s c ∧ deliveredTo t c = deliveredTo s c) ∨
      ∃ command, queueOf t c = queueOf s c ++ [command] ∧
        deliveredTo t c = deliveredTo s c ++ [command] := by
  have hset (c' : ChannelId) (conn conn' : Connection) (hconn : s.connections c' = some conn)
      (hqueue : conn'.queue = conn.queue) : queueOf (s.setConnection c' conn') c = queueOf s c := by
    rw [queueOf, queueOf, ControlPlane.connections_setConnection]
    by_cases hc : c = c'
    · rw [if_pos hc, hc, hconn]
      exact hqueue
    · rw [if_neg hc]
  cases h with
  | announce clusterId info now =>
    refine .inl ⟨?_, rfl⟩
    rw [queueOf, queueOf]
    show ((s.setConnection _ _).connections c).elim [] _ = _
    rw [ControlPlane.connections_setConnection]
    by_cases hc : c = s.nextChannel
    · rw [if_pos hc, hc, hw.fresh _ (Nat.le_refl _)]
      rfl
    · rw [if_neg hc]
  | accept c' conn r hconn hp hr =>
    exact .inl ⟨hset c' conn { conn with phase := .registered } hconn rfl, rfl⟩
  | refuse c' conn e hconn hp hr =>
    exact .inl ⟨hset c' conn { conn with phase := .refused e } hconn rfl, rfl⟩
  | receive c' conn hconn => exact absurd rfl (hreceive c')
  | dropReceiver c' conn hconn =>
    exact .inl ⟨hset c' conn { conn with closed := true } hconn rfl, rfl⟩
  | deliver i p entry conn hi he hconn ho =>
    rw [queueOf, queueOf, deliveredTo, deliveredTo]
    show (((s.setConnection _ _).connections c).elim [] _ = _ ∧ _) ∨
      ∃ command, ((s.setConnection _ _).connections c).elim [] _ = _ ∧ _
    rw [ControlPlane.connections_setConnection]
    by_cases hc : c = entry.commandTx
    · refine .inr ⟨p.command, ?_, ?_⟩
      · rw [if_pos hc, hc, hconn]
        rfl
      · simp [hc]
    · refine .inl ⟨by rw [if_neg hc], ?_⟩
      simp [Ne.symm hc]
  | _ => exact .inl ⟨rfl, rfl⟩

/-- The invariant of a fleet. -/
structure Fleet.Wf (s : Fleet) : Prop where
  control : s.control.Wf
  links : ∀ c, (s.links c).Faithful (deliveredTo s.control c) (queueOf s.control c)
  fresh : ∀ c, s.control.connections c = none → s.links c = .opened []

theorem faithful_opened {arrived : List AgentEvent} (h : arrived.filter AgentEvent.isStatus = []) :
    (Link.opened arrived).Faithful [] [] where
  places := rfl
  answers := by
    show ((arrived ++ [] ++ []).filter AgentEvent.isStatus ++ []).Sublist []
    rw [List.append_nil, List.append_nil, List.append_nil, h]
  unbroken := by
    intro _
    show (arrived ++ [] ++ []).filter AgentEvent.isStatus ++ [] = []
    rw [List.append_nil, List.append_nil, List.append_nil, h]
  each := rfl
  results := fun _ hhandled ↦ absurd hhandled List.not_mem_nil

theorem Fleet.wf_init : Fleet.init.Wf where
  control := ControlPlane.wf_init
  links := fun _ ↦ faithful_opened rfl
  fresh := fun _ _ ↦ rfl

/-- More commands enqueued at the end of the channel. -/
theorem Link.Faithful.enqueue {link : Link} {delivered queue : List AgentCommand}
    (h : link.Faithful delivered queue) (command : AgentCommand) :
    link.Faithful (delivered ++ [command]) (queue ++ [command]) where
  places := by rw [h.places, List.append_assoc]
  answers := h.answers
  unbroken := h.unbroken
  each := h.each
  results := h.results

/-- The task receives the next command of the channel. -/
theorem Link.Faithful.forward {link : Link} {delivered queue : List AgentCommand}
    {command : AgentCommand} (h : link.Faithful delivered (command :: queue))
    (hforwarding : link.forwarding = none) :
    Link.Faithful { link with forwarding := some command } delivered queue where
  places := by
    rw [h.places]
    simp [Link.received, hforwarding]
  answers := h.answers
  unbroken := h.unbroken
  each := h.each
  results := h.results

theorem links_setLink (s : Fleet) (c c' : ChannelId) (link : Link) :
    (s.setLink c link).links c' = if c' = c then link else s.links c' := by
  simp [Fleet.setLink, Function.update_apply]

/-- A connection of the control plane stays. -/
theorem connections_none {s t : ControlPlane} {a : Action} (h : Step s a t) (hw : s.Wf)
    {c : ChannelId} (hc : t.connections c = none) : s.connections c = none := by
  cases hs : s.connections c with
  | none => rfl
  | some conn =>
    obtain ⟨conn', hconn', -⟩ := h.connection_kept hw c conn hs
    rw [hc] at hconn'
    cases hconn'

theorem FleetStep.wf {s t : Fleet} {b : FleetAction} (h : FleetStep s b t) (hw : s.Wf) : t.Wf := by
  cases h with
  | control a control h hreceive hlookup =>
    refine ⟨h.wf hw.control, ?_, fun c hc ↦ hw.fresh c (connections_none h hw.control hc)⟩
    intro c
    show (s.links c).Faithful (deliveredTo control c) (queueOf control c)
    rcases queue_cases h hw.control hreceive c with ⟨hq, hd⟩ | ⟨command, hq, hd⟩
    · rw [hq, hd]
      exact hw.links c
    · rw [hq, hd]
      exact (hw.links c).enqueue command
  | connect clusterId info now control h =>
    have hfresh := hw.control.fresh s.control.nextChannel (Nat.le_refl _)
    refine ⟨h.wf hw.control, ?_, ?_⟩
    · intro c
      have hsame : queueOf control c = queueOf s.control c ∧
          deliveredTo control c = deliveredTo s.control c := by
        rcases queue_cases h hw.control (fun _ he ↦ by cases he) c with hsame | ⟨command, -, hd⟩
        · exact hsame
        · cases h with
          | announce =>
            have hsame : deliveredTo s.control c = deliveredTo s.control c ++ [command] := hd
            have hlength := congrArg List.length hsame
            rw [List.length_append, List.length_singleton] at hlength
            omega
      show ((s.setLink _ _).links c).Faithful (deliveredTo control c) (queueOf control c)
      rw [hsame.1, hsame.2, links_setLink]
      by_cases hc : c = s.control.nextChannel
      · have hold := hw.links c
        have hqueue : queueOf s.control c = [] := by
          rw [queueOf, hc, hfresh]
          rfl
        rw [hc, hw.fresh _ hfresh, ← hc, hqueue] at hold
        have hdelivered : deliveredTo s.control c = [] := hold.places
        rw [if_pos hc, hqueue, hdelivered]
        exact faithful_opened rfl
      · rw [if_neg hc]
        exact hw.links c
    · intro c hc
      show (s.setLink _ _).links c = _
      rw [links_setLink, if_neg ?_]
      · exact hw.fresh c (connections_none h hw.control hc)
      · rintro rfl
        cases h with
        | announce => simp at hc
  | forward c command rest conn hconn hqueue hforwarding =>
    have hreceive : Step s.control (.receive c)
        (s.control.setConnection c { conn with queue := rest }) := by
      have hstep := Step.receive (s := s.control) c conn hconn
      rw [hqueue] at hstep
      exact hstep
    refine ⟨hreceive.wf hw.control, ?_, ?_⟩
    · intro c'
      show ((s.setLink c _).links c').Faithful (deliveredTo s.control c')
        (queueOf (s.control.setConnection c { conn with queue := rest }) c')
      rw [links_setLink, queueOf, ControlPlane.connections_setConnection]
      by_cases hc : c' = c
      · have hold := hw.links c
        rw [queueOf, hconn, Option.elim_some, hqueue] at hold
        rw [if_pos hc, if_pos hc, hc]
        exact hold.forward hforwarding
      · rw [if_neg hc, if_neg hc]
        exact hw.links c'
    · intro c' hc'
      show (s.setLink c _).links c' = _
      rw [links_setLink, if_neg ?_]
      · exact hw.fresh c' (connections_none hreceive hw.control hc')
      · rintro rfl
        simp at hc'
  | move c link h hopened =>
    refine ⟨hw.control, ?_, ?_⟩
    · intro c'
      show ((s.setLink c link).links c').Faithful _ _
      rw [links_setLink]
      by_cases hc : c' = c
      · rw [if_pos hc, hc]
        exact h.faithful (hw.links c)
      · rw [if_neg hc]
        exact hw.links c'
    · intro c' hc'
      rw [links_setLink, if_neg ?_]
      · exact hw.fresh c' hc'
      · rintro rfl
        have hnone : s.control.connections c' = none := hc'
        have hsome := hopened (hw.fresh c' hnone)
        rw [hnone] at hsome
        cases hsome

theorem Fleet.wf_of_run {tr : List (Transition Fleet FleetAction)} {s : Fleet}
    (h : Run fleetStep Fleet.init tr s) : s.Wf :=
  Run.invariant Fleet.wf_init (fun _ _ _ hw hstep ↦ (fleetStep_cases hstep).wf hw) h

/-! ## At most once -/

/-- The commands given to `send_command_to_cluster` in a run. -/
def sentCommands (tr : List (Transition Fleet FleetAction)) : List AgentCommand :=
  tr.filterMap fun x ↦
    match x.action with
    | .control (.lookup _ command _) => some command
    | _ => none

/-- The commands enqueued so far and those in flight. -/
def Fleet.routed (s : Fleet) : List AgentCommand :=
  s.control.delivered.map (·.command) ++ s.control.pending.map (·.command)

theorem subperm_eraseIdx {l : List PendingCommand} (i : Nat) :
    ((l.eraseIdx i).map (·.command)).Subperm (l.map (·.command)) :=
  ((List.eraseIdx_sublist ..).map _).subperm

/-- A step of the control plane that looks nothing up routes no more commands. -/
theorem routed_subperm {s t : ControlPlane} {a : Action} (h : Step s a t)
    (hlookup : ∀ clusterId command agentId, a ≠ .lookup clusterId command agentId) :
    (t.delivered.map (·.command) ++ t.pending.map (·.command)).Subperm
      (s.delivered.map (·.command) ++ s.pending.map (·.command)) := by
  cases h with
  | lookup clusterId command agentId entry he hb => exact absurd rfl (hlookup _ _ _)
  | undelivered i hn => exact (List.subperm_append_left _).mpr (subperm_eraseIdx i)
  | deliver i p entry conn hi he hc ho =>
    obtain ⟨hlt, rfl⟩ := List.getElem?_eq_some_iff.mp hi
    have hperm := ((List.getElem_cons_eraseIdx_perm hlt).map (·.command)).symm
    have happend := (hperm.append_left (s.delivered.map (·.command))).symm
    exact (List.perm_middle.symm.trans happend).subperm
  | _ => exact .refl _

/-- A step looks up a command, or routes no more than before. -/
theorem FleetStep.routed {s t : Fleet} {b : FleetAction} (h : FleetStep s b t) :
    t.routed.Subperm s.routed ∨ ∃ clusterId command agentId,
      b = .control (.lookup clusterId command agentId) ∧ t.routed = s.routed ++ [command] := by
  cases h with
  | control a control h hreceive hlookup =>
    by_cases hlook : ∃ clusterId command agentId, a = .lookup clusterId command agentId
    · obtain ⟨clusterId, command, agentId, rfl⟩ := hlook
      refine .inr ⟨clusterId, command, agentId, hlookup _ _ _ rfl, ?_⟩
      cases h with
      | lookup clusterId command agentId entry he hb =>
        simp [Fleet.routed]
    · refine .inl (routed_subperm h ?_)
      intro clusterId command agentId ha
      exact hlook ⟨clusterId, command, agentId, ha⟩
  | connect clusterId info now control h =>
    exact .inl (routed_subperm h fun _ _ _ he ↦ by cases he)
  | forward c command rest conn hconn hqueue hforwarding => exact .inl (.refl _)
  | move c link h hopened => exact .inl (.refl _)

/-- No more commands are routed than were sent. -/
theorem routed_sent {tr : List (Transition Fleet FleetAction)} {s : Fleet}
    (h : Run fleetStep Fleet.init tr s) : s.routed.Subperm (sentCommands tr) := by
  induction h with
  | nil => exact .refl _
  | @snoc tr s t a _ ht ih =>
    rw [sentCommands, List.filterMap_append]
    rcases (fleetStep_cases ht).routed with hsub | ⟨clusterId, command, agentId, rfl, hrouted⟩
    · exact (hsub.trans ih).trans (List.sublist_append_left _ _).subperm
    · rw [hrouted]
      exact (List.subperm_append_right _).mpr ih

/-- The commands of several channels are among all that were enqueued. -/
theorem flatMap_deliveredTo (s : ControlPlane) {channels : List ChannelId}
    (h : channels.Nodup) :
    (channels.flatMap (deliveredTo s)).Subperm (s.delivered.map (·.command)) := by
  have hperm : (channels.flatMap fun c ↦ s.delivered.filter fun d ↦ d.channel = c).Perm
      (s.delivered.filter fun d ↦ d.channel ∈ channels) := by
    induction channels with
    | nil =>
      rw [List.flatMap_nil, List.filter_eq_nil_iff.mpr]
      simp
    | cons c rest ih =>
      obtain ⟨hc, hrest⟩ := List.nodup_cons.mp h
      rw [List.flatMap_cons]
      have hsplit := List.filter_append_perm (fun d : Delivery ↦ d.channel = c)
        (s.delivered.filter fun d ↦ d.channel ∈ c :: rest)
      rw [List.filter_filter, List.filter_filter] at hsplit
      have hleft (d : Delivery) : (decide (d.channel = c) && decide (d.channel ∈ c :: rest)) =
          decide (d.channel = c) := by
        by_cases hd : d.channel = c <;> simp [hd]
      have hright (d : Delivery) :
          (!decide (d.channel = c) && decide (d.channel ∈ c :: rest)) =
            decide (d.channel ∈ rest) := by
        by_cases hd : d.channel = c
        · simp [hd, hc]
        · simp [hd]
      rw [List.filter_congr fun d _ ↦ hleft d, List.filter_congr fun d _ ↦ hright d] at hsplit
      exact ((ih hrest).append_left _).trans hsplit
  have hreverse : (channels.flatMap (deliveredTo s)).Perm
      ((channels.flatMap fun c ↦ s.delivered.filter fun d ↦ d.channel = c).map (·.command)) := by
    rw [List.map_flatMap]
    exact List.Perm.flatMap_left _ fun c _ ↦ List.reverse_perm _
  exact (hreverse.trans (hperm.map _)).subperm.trans ((List.filter_sublist.map _).subperm)

/-- The commands that an agent has handled over a stream. -/
def Link.handledCommands (link : Link) : List AgentCommand := link.handled.map (·.command)

/-- Over every stream an agent handles what the control plane enqueued for it, in order and each
command once, and answers each by at most one status in the same order, by exactly one while the
stream is not severed; and all streams together handle no command more often than it was sent to a
cluster. -/
theorem commands_at_most_once {tr : List (Transition Fleet FleetAction)} {s : Fleet}
    (h : Run fleetStep Fleet.init tr s) :
    (∀ c, (s.links c).Faithful (deliveredTo s.control c) (queueOf s.control c)) ∧
      ∀ channels : List ChannelId, channels.Nodup →
        (channels.flatMap fun c ↦ (s.links c).handledCommands).Subperm (sentCommands tr) := by
  have hw := Fleet.wf_of_run h
  refine ⟨hw.links, ?_⟩
  intro channels hchannels
  have hhandled : (channels.flatMap fun c ↦ (s.links c).handledCommands).Sublist
      (channels.flatMap (deliveredTo s.control)) := by
    apply List.Sublist.flatMap_right
    intro c _
    rw [(hw.links c).places, Link.received]
    simp [Link.handledCommands, List.append_assoc]
  apply hhandled.subperm.trans
  apply (flatMap_deliveredTo s.control hchannels).trans
  exact (List.sublist_append_left _ _).subperm.trans (routed_sent h)

/-- A cluster's agent restarts a project and answers; then it restarts another one, and the stream
breaks before the second answer. -/
def twoRestarts : List FleetAction :=
  [.connect 1 ⟨7, "one", "", "", 0⟩ 0, .control (.insert 0),
    .control (.lookup 1 (.restart "shop") 7), .control (.deliver 0), .forward 0, .push 0,
    .transmit 0, .take 0, .execute 0 (.ok ()) 1, .answer 0, .upload 0, .arrive 0,
    .control (.lookup 1 (.restart "blog") 7), .control (.deliver 0), .forward 0, .push 0,
    .transmit 0, .take 0, .execute 0 (.ok ()) 2, .sever 0, .answer 0]

theorem commands_at_most_once_restarts : ∃ s, execute fleetStep .init twoRestarts = some s ∧
    (s.links 0).handledCommands = [.restart "shop", .restart "blog"] ∧
    (s.links 0).events.filter AgentEvent.isStatus =
      [.commandStatus "shop" "restart" true "Restart applied" 1] ∧
    (s.links 0).Faithful (deliveredTo s.control 0) (queueOf s.control 0) := by
  have hends : ∃ s, execute fleetStep .init twoRestarts = some s ∧
      (s.links 0).handledCommands = [.restart "shop", .restart "blog"] ∧
      (s.links 0).events.filter AgentEvent.isStatus =
        [.commandStatus "shop" "restart" true "Restart applied" 1] := ⟨_, rfl, rfl, rfl⟩
  obtain ⟨s, hs, hhandled, hevents⟩ := hends
  exact ⟨s, hs, hhandled, hevents, (commands_at_most_once (Run.of_execute _ hs)).1 0⟩

end ReinhardtCloud.Agent
