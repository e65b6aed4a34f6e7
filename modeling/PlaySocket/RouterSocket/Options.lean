import PlaySocket.RouterSocket.Settings

/-!
# The options of a router socket

The constructor of `RouterSocket` reads its settings, makes a zmq socket and sets
thirteen options of it, one after another.  What is in force on the socket
afterwards follows from what the settings make of the configuration, so an
option behind a gap in the settings has its default here too.
-/

namespace PlaySocket

open Exec

/-- The options of `zmq::sockopt` that the constructor sets. -/
inductive SockOpt where
  | routingId
  | immediate
  | routerHandover
  | backlog
  | linger
  | tcpKeepalive
  | tcpKeepaliveCnt
  | tcpKeepaliveIntvl
  | sndbuf
  | rcvbuf
  | rcvhwm
  | sndhwm
  | routerMandatory
deriving DecidableEq, Repr

inductive OptValue where
  | bytes (value : List UInt8)
  | bool (value : Bool)
  | int (value : Int32)
deriving DecidableEq, Repr

/-- `set` of a zmq socket with state `σ`, and the values in force on it. -/
structure ZmqOptions (ε σ : Type) where
  set : SockOpt → OptValue → Exec ε σ Unit
  value : σ → SockOpt → OptValue

/-- An option that is set has the value from then on, and no other changes. -/
structure ZmqOptions.Sets {ε σ : Type} (zmq : ZmqOptions ε σ) : Prop where
  value_self : ∀ {o v s t}, (zmq.set o v).run s = .ok () t → zmq.value t o = v
  value_other : ∀ {o o' v s t}, (zmq.set o v).run s = .ok () t → o' ≠ o →
    zmq.value t o' = zmq.value s o'

namespace RouterSocket

variable {ε ρ σ : Type}

def setOptions (zmq : ZmqOptions ε σ) (endpoint : List UInt8) (config : SocketConfig) :
    Exec ε σ Unit := do
  zmq.set .routingId (.bytes endpoint)
  zmq.set .immediate (.bool config.immediate)
  zmq.set .routerHandover (.bool config.routerHandOver)
  zmq.set .backlog (.int config.backLog)
  zmq.set .linger (.int config.linger)
  zmq.set .tcpKeepalive (.int config.tcpKeepAlive)
  zmq.set .tcpKeepaliveCnt (.int config.tcpKeepAliveCount)
  zmq.set .tcpKeepaliveIntvl (.int config.tcpKeepAliveInterval)
  zmq.set .sndbuf (.int config.sendBufferSize)
  zmq.set .rcvbuf (.int config.receiveBufferSize)
  zmq.set .rcvhwm (.int config.receiveHighWatermark)
  zmq.set .sndhwm (.int config.sendHighWatermark)
  zmq.set .routerMandatory (.bool config.routerMandatory)

/-- `RouterSocket(options, endpoint)`. -/
def construct (cx : Cxxopts ε ρ) (zmq : ZmqOptions ε σ) (options : List Char)
    (endpoint : List UInt8) : Exec ε σ SocketConfig :=
  match SocketConfig.construct cx options with
  | .ok _ config => do
    setOptions zmq endpoint config
    pure config
  | .thrown e _ => raise e
  | .fault w => undefined w

/-! ## The values in force -/

/-- The value each option is set to. -/
def assigned (endpoint : List UInt8) (config : SocketConfig) : SockOpt → OptValue
  | .routingId => .bytes endpoint
  | .immediate => .bool config.immediate
  | .routerHandover => .bool config.routerHandOver
  | .backlog => .int config.backLog
  | .linger => .int config.linger
  | .tcpKeepalive => .int config.tcpKeepAlive
  | .tcpKeepaliveCnt => .int config.tcpKeepAliveCount
  | .tcpKeepaliveIntvl => .int config.tcpKeepAliveInterval
  | .sndbuf => .int config.sendBufferSize
  | .rcvbuf => .int config.receiveBufferSize
  | .rcvhwm => .int config.receiveHighWatermark
  | .sndhwm => .int config.sendHighWatermark
  | .routerMandatory => .bool config.routerMandatory

/-- The options in the order they are set. -/
def sockOpts : List SockOpt :=
  [.routingId, .immediate, .routerHandover, .backlog, .linger, .tcpKeepalive, .tcpKeepaliveCnt,
    .tcpKeepaliveIntvl, .sndbuf, .rcvbuf, .rcvhwm, .sndhwm, .routerMandatory]

theorem mem_sockOpts (o : SockOpt) : o ∈ sockOpts := by
  cases o <;> decide

def setEach (zmq : ZmqOptions ε σ) (values : SockOpt → OptValue) (os : List SockOpt) :
    Exec ε σ Unit :=
  forEach (fun o => zmq.set o (values o)) os

theorem setOptions_eq (zmq : ZmqOptions ε σ) (endpoint : List UInt8) (config : SocketConfig)
    (s : σ) : (setOptions zmq endpoint config).run s =
      (setEach zmq (assigned endpoint config) sockOpts).run s := by
  simp only [setOptions, setEach, sockOpts, forEach, run_bind, run_pure, Exit.andThen_unit]
  rfl

/-- The value of an option does not depend on when it is set. -/
theorem setEach_value {zmq : ZmqOptions ε σ} (hsets : zmq.Sets) (values : SockOpt → OptValue)
    (os : List SockOpt) : ∀ {s t : σ}, (setEach zmq values os).run s = .ok () t →
      ∀ o, zmq.value t o = if o ∈ os then values o else zmq.value s o := by
  induction os with
  | nil =>
    intro s t hrun o
    cases hrun
    rw [if_neg List.not_mem_nil]
  | cons first os ih =>
    intro s t hrun o
    rw [setEach, forEach, run_bind] at hrun
    cases hset : (zmq.set first (values first)).run s with
    | ok u s₁ =>
      rw [hset, Exit.andThen_ok] at hrun
      rw [ih hrun]
      by_cases hmem : o ∈ os
      · rw [if_pos hmem, if_pos (List.mem_cons_of_mem first hmem)]
      · by_cases heq : o = first
        · rw [if_neg hmem, if_pos (heq ▸ List.mem_cons_self), heq, hsets.value_self hset]
        · rw [if_neg hmem, if_neg (by simp [heq, hmem]), hsets.value_other hset heq]
    | thrown e s₁ =>
      rw [hset, Exit.andThen_thrown] at hrun
      cases hrun
    | fault w =>
      rw [hset, Exit.andThen_fault] at hrun
      cases hrun

theorem construct_value {cx : Cxxopts ε ρ} {zmq : ZmqOptions ε σ} (hsets : zmq.Sets)
    {options : List Char} {endpoint : List UInt8} {config config' : SocketConfig}
    (hconfig : SocketConfig.construct cx options = .ok () config) {s t : σ}
    (hrun : (construct cx zmq options endpoint).run s = .ok config' t) (o : SockOpt) :
    zmq.value t o = assigned endpoint config o := by
  rw [construct, hconfig, run_bind, setOptions_eq] at hrun
  cases hset : (setEach zmq (assigned endpoint config) sockOpts).run s with
  | ok u s₁ =>
    rw [hset] at hrun
    cases hrun
    rw [setEach_value hsets _ _ hset, if_pos (mem_sockOpts o)]
  | thrown e s₁ =>
    rw [hset] at hrun
    cases hrun
  | fault w =>
    rw [hset] at hrun
    cases hrun

end RouterSocket

namespace BoolOption

def sockOpt : BoolOption → SockOpt
  | immediate => .immediate
  | routerHandOver => .routerHandover
  | routerMandatory => .routerMandatory

theorem assigned_sockOpt (endpoint : List UInt8) (config : SocketConfig) (o : BoolOption) :
    RouterSocket.assigned endpoint config o.sockOpt = .bool (member config o) := by
  cases o <;> rfl

end BoolOption

namespace IntOption

def sockOpt : IntOption → SockOpt
  | tcpKeepAlive => .tcpKeepalive
  | tcpKeepAliveCount => .tcpKeepaliveCnt
  | tcpKeepAliveInterval => .tcpKeepaliveIntvl
  | backLog => .backlog
  | linger => .linger
  | sendBufferSize => .sndbuf
  | receiveBufferSize => .rcvbuf
  | sendHighWatermark => .sndhwm
  | receiveHighWatermark => .rcvhwm

theorem assigned_sockOpt (endpoint : List UInt8) (config : SocketConfig) (o : IntOption) :
    RouterSocket.assigned endpoint config o.sockOpt = .int (member config o) := by
  cases o <;> rfl

end IntOption

namespace RouterSocket

open SocketConfig

variable {ε ρ σ : Type}

/-- An integer option that is given, with all that are read before it. -/
def Reached (settings : List Setting) (o : IntOption) : Prop :=
  ∀ o' ∈ o :: IntOption.before o, ∃ value, .int o' value ∈ settings

/-- What settings come to on a socket.  An absent boolean option is off, whatever
its default, and an integer option counts if it is reached. -/
structure InForce (settings : List Setting) (value : SockOpt → OptValue) : Prop where
  bool_given : ∀ o b, .bool o b ∈ settings → value o.sockOpt = .bool b
  bool_absent : ∀ o, (∀ b, .bool o b ∉ settings) → value o.sockOpt = .bool false
  int_reached : ∀ o i, .int o i ∈ settings → Reached settings o → value o.sockOpt = .int i
  int_default : ∀ o, ¬Reached settings o → value o.sockOpt = .int (IntOption.member {} o)

theorem reached_iff {cx : Cxxopts ε ρ} {settings : List Setting} {result : ρ}
    (h : Records cx settings result) (o : IntOption) :
    Reached settings o ↔ o ∈ IntOption.all.takeWhile (Readable cx result) := by
  rw [mem_takeWhile_iff o.mem_all, Reached, List.forall_mem_cons]
  refine and_congr (h.readable_iff o).symm ?_
  exact forall_congr' fun o' => imp_congr_right fun _ => (h.readable_iff o').symm

theorem inForce_of_configured {cx : Cxxopts ε ρ} {settings : List Setting} {result : ρ}
    (h : Records cx settings result) {config : SocketConfig}
    (hconfig : Configured cx result config) (endpoint : List UInt8) :
    InForce settings (assigned endpoint config) where
  bool_given o b hmem := by
    have hread := h.bool_given o b hmem
    rw [hconfig.bools] at hread
    rw [BoolOption.assigned_sockOpt, Except.ok.inj hread]
  bool_absent o habsent := by
    have hread := h.bool_absent o habsent
    rw [hconfig.bools] at hread
    rw [BoolOption.assigned_sockOpt, Except.ok.inj hread]
  int_reached o i hmem hreached := by
    rw [IntOption.assigned_sockOpt, hconfig.ints, if_pos ((reached_iff h o).mp hreached),
      h.int_given o i hmem]
    rfl
  int_default o hgap := by
    rw [IntOption.assigned_sockOpt, hconfig.ints, if_neg (mt (reached_iff h o).mpr hgap)]

/-- On a socket that has been constructed with settings that cxxopts records, the
routing id is the endpoint, and the settings have come to what they come to in
the configuration.  With a string that it rejects all options are defaults. -/
theorem options_in_force (cx : Cxxopts ε ρ) (zmq : ZmqOptions ε σ) (hsets : zmq.Sets)
    (settings : List Setting) (result : ρ) (h : Records cx settings result)
    (endpoint : List UInt8) (s : σ) :
    (∀ config t, (construct cx zmq (Setting.written settings) endpoint).run s = .ok config t →
      zmq.value t .routingId = .bytes endpoint ∧ InForce settings (zmq.value t)) ∧
      ∀ option e config t, cx.parse optionSpecs (fakeArgv option) = .error e →
        (construct cx zmq option endpoint).run s = .ok config t →
        ∀ o, zmq.value t o = assigned endpoint {} o := by
  obtain ⟨config, hconstruct, hconfig⟩ := construct_written h
  constructor
  · intro config' t hrun
    have hvalue : zmq.value t = assigned endpoint config :=
      funext fun o => construct_value hsets hconstruct hrun o
    rw [hvalue]
    exact ⟨rfl, inForce_of_configured h hconfig endpoint⟩
  · intro option e config' t hrejected hrun o
    exact construct_value hsets (construct_rejected hrejected) hrun o

/-- A socket with a value for each option.  A routing id has at least one byte and
at most 255. -/
def optionTable : ZmqOptions String (SockOpt → OptValue) where
  set o v :=
    match v with
    | .bytes id =>
      if id.length = 0 ∨ 255 < id.length then raise "Invalid argument"
      else update fun values => Function.update values o v
    | _ => update fun values => Function.update values o v
  value values := values

theorem optionTable_run {o : SockOpt} {v : OptValue} {s t : SockOpt → OptValue}
    (h : (optionTable.set o v).run s = .ok () t) : t = Function.update s o v := by
  cases v with
  | bytes id =>
    simp only [optionTable] at h
    split at h <;> cases h
    rfl
  | bool b => cases h; rfl
  | int i => cases h; rfl

theorem optionTable_sets : optionTable.Sets where
  value_self h := by
    rw [optionTable_run h]
    exact Function.update_self _ _ _
  value_other h hne := by
    rw [optionTable_run h]
    exact Function.update_of_ne hne _ _

/-- The four settings on a socket bound to `tcp`. -/
theorem options_in_force_four :
    (∃ config values,
      (construct tokenTable optionTable (Setting.written fourSettings) [116, 99, 112]).run
        (fun _ => .int 0) = .ok config values ∧
      values .routingId = .bytes [116, 99, 112] ∧ InForce fourSettings values) ∧
      ∀ option e config values, tokenTable.parse optionSpecs (fakeArgv option) = .error e →
        (construct tokenTable optionTable option [116, 99, 112]).run (fun _ => .int 0) =
          .ok config values →
        ∀ o, values o = assigned [116, 99, 112] {} o := by
  have hforce := options_in_force tokenTable optionTable optionTable_sets fourSettings _
    fourSettings_recorded [116, 99, 112] (fun _ => .int 0)
  obtain ⟨config, hconstruct, _⟩ := construct_written fourSettings_recorded
  have hrun : ∃ values,
      (construct tokenTable optionTable (Setting.written fourSettings) [116, 99, 112]).run
        (fun _ => .int 0) = .ok config values := by
    rw [construct, hconstruct]
    exact ⟨_, rfl⟩
  obtain ⟨values, hrun⟩ := hrun
  exact ⟨⟨config, values, hrun, hforce.1 config values hrun⟩, hforce.2⟩

end RouterSocket

end PlaySocket
