import PlaySocket.Lib.Channel
import PlaySocket.Lib.Machine
import PlaySocket.RouterSocket.Message

/-!
# Routers on a network

Router sockets that send to one another, among peers that put frames of their
own making on the wire.  The network is zmq, a third-party library.  `Routes`
is what its router sockets promise.  The first frame of what is sent names the
peer it goes to, and what is received comes with the peer it is from in front.

For each pair of peers `accepted` and `received` are the two ends of a channel,
and one step lemma (`step_carries`) says what a step does to it.
-/

namespace PlaySocket

open Exec

/-- Sockets by routing id.  `inFlight` is what is on its way from one to another,
and `sever` breaks a connection. -/
structure ZmqNetwork (ε σ : Type) where
  socket : MessageT → ZmqSocket ε σ
  mandatory : MessageT → Bool
  inFlight : σ → MessageT → MessageT → List (List MessageT)
  sever : MessageT → MessageT → σ → σ

namespace ZmqNetwork

variable {ε σ : Type}

/-- Nothing was sent and nothing received. -/
def Same (net : ZmqNetwork ε σ) (s t : σ) : Prop :=
  ∀ a b, net.inFlight t a b = net.inFlight s a b

def Routed (net : ZmqNetwork ε σ) (sender target : MessageT) (frames : List MessageT)
    (s t : σ) : Prop :=
  ∀ a b, net.inFlight t a b =
    net.inFlight s a b ++ if sender = a ∧ target = b then [frames] else []

def Taken (net : ZmqNetwork ε σ) (sender target : MessageT) (frames : List MessageT)
    (s t : σ) : Prop :=
  ∀ a b, net.inFlight s a b =
    (if sender = a ∧ target = b then [frames] else []) ++ net.inFlight t a b

/-- A router socket routes by the first frame.  It drops what it cannot route,
and says so only if it is mandatory.  A call that fails sends nothing. -/
structure Routes (net : ZmqNetwork ε σ) : Prop where
  send_ok : ∀ {a frames s n t}, ((net.socket a).sendMultipart frames).run s = .ok (some n) t →
    (∃ target rest, frames = target :: rest ∧ net.Routed a target rest s t) ∨
      (net.mandatory a = true → frames.length ≤ 1) ∧ net.Same s t
  send_none : ∀ {a frames s t}, ((net.socket a).sendMultipart frames).run s = .ok none t →
    net.Same s t
  send_thrown : ∀ {a frames s e t}, ((net.socket a).sendMultipart frames).run s = .thrown e t →
    net.Same s t
  recv_ok : ∀ {b s frames t}, (net.socket b).recvMultipart.run s = .ok (some frames) t →
    ∃ a rest, frames = a :: rest ∧ net.Taken a b rest s t
  recv_none : ∀ {b s t}, (net.socket b).recvMultipart.run s = .ok none t → net.Same s t
  recv_thrown : ∀ {b s e t}, (net.socket b).recvMultipart.run s = .thrown e t → net.Same s t
  sever_sublist : ∀ a b s x y, (net.inFlight (net.sever a b s) x y).Sublist (net.inFlight s x y)
  sever_other : ∀ {a b x y}, ¬(a = x ∧ b = y) → ¬(a = y ∧ b = x) → ∀ s,
    net.inFlight (net.sever a b s) x y = net.inFlight s x y

end ZmqNetwork

/-- `transmit` is a peer that uses zmq without `RouterSocket`. -/
inductive RouterEvent where
  | send (peer : MessageT) (message : RouterMessage)
  | transmit (peer : MessageT) (frames : List MessageT)
  | recv (peer : MessageT)
  | sever (peer other : MessageT)
deriving DecidableEq, Repr

/-- The peer that acts. -/
def RouterEvent.peer : RouterEvent → MessageT
  | send peer _ => peer
  | transmit peer _ => peer
  | recv peer => peer
  | sever peer _ => peer

/-- `accepted` has each message a call has sent, with its sender, and `received`
each message `recv` has returned, with its receiver. -/
structure Routers (σ : Type) where
  zmq : σ
  accepted : List (MessageT × RouterMessage)
  received : List (MessageT × RouterMessage)

namespace Routers

variable {ε σ : Type}

/-- What a call on a socket leaves, given whether its result means that it sent
the message. -/
def afterCall {τ α : Type} (s : Routers σ) (peer : MessageT) (message : Option RouterMessage)
    (sent : α → Bool) (zmq : τ → σ) : Exit ε τ α → Option (Routers σ)
  | .ok result t =>
    if sent result = true then
      some { s with
        zmq := zmq t
        accepted := s.accepted ++ message.toList.map fun m => (peer, m) }
    else some { s with zmq := zmq t }
  | .thrown _ t => some { s with zmq := zmq t }
  | .fault _ => none

def step (net : ZmqNetwork ε σ) (s : Routers σ) : RouterEvent → Option (Routers σ)
  | .send peer message =>
    s.afterCall peer (some message) id Prod.snd
      ((RouterSocket.send (net.socket peer)).run (message, s.zmq))
  | .transmit peer frames =>
    s.afterCall peer (RouterSocket.ofThree frames) Option.isSome id
      (((net.socket peer).sendMultipart frames).run s.zmq)
  | .recv peer =>
    match (RouterSocket.recv (net.socket peer)).run s.zmq with
    | .ok message t =>
      some { s with zmq := t, received := s.received ++ message.toList.map fun m => (peer, m) }
    | .thrown _ t => some { s with zmq := t }
    | .fault _ => none
  | .sever peer other => some { s with zmq := net.sever peer other s.zmq }

/-- The routers on a network with nothing sent and nothing received. -/
def machine (net : ZmqNetwork ε σ) (zmq : σ) : Machine (Routers σ) RouterEvent where
  init := { zmq := zmq, accepted := [], received := [] }
  step := step net

/-! ## What a step can do -/

/-- To `RouterSocket::send` a peer that sends the frames of a message is the same. -/
theorem step_send (net : ZmqNetwork ε σ) (s : Routers σ) (peer : MessageT)
    (message : RouterMessage) :
    step net s (.send peer message) = step net s (.transmit peer message.frames) := by
  rw [step, step, RouterSocket.send_run]
  cases ((net.socket peer).sendMultipart message.frames).run s.zmq <;> rfl

/-- The entry of some frames, if they make a message. -/
def letters (peer : MessageT) (frames : List MessageT) : List (MessageT × RouterMessage) :=
  (RouterSocket.ofThree frames).toList.map fun m => (peer, m)

inductive Effect (net : ZmqNetwork ε σ) (s : Routers σ) : RouterEvent → Routers σ → Prop where
  | nothing {e : RouterEvent} {z : σ} (h : net.Same s.zmq z) : Effect net s e { s with zmq := z }
  | routed {e : RouterEvent} {z : σ} {target : MessageT} {rest : List MessageT}
      (h : net.Routed e.peer target rest s.zmq z) :
      Effect net s e
        { s with zmq := z, accepted := s.accepted ++ letters e.peer (target :: rest) }
  | dropped {e : RouterEvent} {z : σ} {frames : List MessageT}
      (hmandatory : net.mandatory e.peer = true → letters e.peer frames = [])
      (h : net.Same s.zmq z) :
      Effect net s e { s with zmq := z, accepted := s.accepted ++ letters e.peer frames }
  | taken {e : RouterEvent} {z : σ} {sender : MessageT} {rest : List MessageT}
      (h : net.Taken sender e.peer rest s.zmq z) :
      Effect net s e
        { s with zmq := z, received := s.received ++ letters e.peer (sender :: rest) }
  | severed (peer other : MessageT) :
      Effect net s (.sever peer other) { s with zmq := net.sever peer other s.zmq }

theorem letters_of_short {peer : MessageT} {frames : List MessageT} (h : frames.length ≤ 1) :
    letters peer frames = [] := by
  match frames with
  | [] => rfl
  | [_] => rfl
  | _ :: _ :: _ => exact absurd h (by simp)

variable {net : ZmqNetwork ε σ}

theorem transmit_effect (hroutes : net.Routes) {s t : Routers σ} {e : RouterEvent}
    {frames : List MessageT} (h : step net s (.transmit e.peer frames) = some t) :
    Effect net s e t := by
  rw [step] at h
  cases hcall : ((net.socket e.peer).sendMultipart frames).run s.zmq with
  | ok sendresult z =>
    rw [hcall] at h
    cases sendresult with
    | none =>
      cases h
      exact .nothing (hroutes.send_none hcall)
    | some n =>
      cases h
      rcases hroutes.send_ok hcall with hrouted | hdropped
      · obtain ⟨target, rest, rfl, hrouted⟩ := hrouted
        exact .routed hrouted
      · obtain ⟨hshort, hsame⟩ := hdropped
        exact .dropped (fun hmandatory => letters_of_short (hshort hmandatory)) hsame
  | thrown ex z =>
    rw [hcall] at h
    cases h
    exact .nothing (hroutes.send_thrown hcall)
  | fault w =>
    rw [hcall] at h
    cases h

theorem recv_effect (hroutes : net.Routes) {s t : Routers σ} {e : RouterEvent}
    (h : step net s (.recv e.peer) = some t) : Effect net s e t := by
  rw [step, RouterSocket.recv_run] at h
  cases hcall : (net.socket e.peer).recvMultipart.run s.zmq with
  | ok ret z =>
    rw [hcall] at h
    cases ret with
    | none =>
      simp only [Exit.andThen_ok, Option.bind_none, Option.toList_none, List.map_nil,
        List.append_nil, Option.some.injEq] at h
      subst h
      exact .nothing (hroutes.recv_none hcall)
    | some frames =>
      obtain ⟨sender, rest, rfl, htaken⟩ := hroutes.recv_ok hcall
      cases h
      exact .taken htaken
  | thrown ex z =>
    rw [hcall] at h
    cases h
    exact .nothing (hroutes.recv_thrown hcall)
  | fault w =>
    rw [hcall] at h
    cases h

theorem step_effect (hroutes : net.Routes) {s t : Routers σ} {e : RouterEvent}
    (h : step net s e = some t) : Effect net s e t := by
  cases e with
  | send peer message =>
    rw [step_send] at h
    exact transmit_effect hroutes h
  | transmit peer frames => exact transmit_effect hroutes h
  | recv peer => exact recv_effect hroutes h
  | sever peer other =>
    cases h
    exact .severed peer other

/-! ## Channels between peers -/

/-- Header and body of the messages of a trace that one peer sent to another, or
received from it. -/
def parcels (trace : List (MessageT × RouterMessage)) (peer other : MessageT) :
    List (MessageT × MessageT) :=
  trace.filterMap fun e =>
    if e.1 = peer ∧ e.2.target = other then some (e.2.header, e.2.body) else none

def twoFrames : List MessageT → Option (MessageT × MessageT)
  | [header, body] => some (header, body)
  | _ => none

/-- What is on its way from one peer to another and will be a message. -/
def underway (net : ZmqNetwork ε σ) (zmq : σ) (sender target : MessageT) :
    List (MessageT × MessageT) :=
  (net.inFlight zmq sender target).filterMap twoFrames

theorem parcels_append (front rest : List (MessageT × RouterMessage)) (peer other : MessageT) :
    parcels (front ++ rest) peer other = parcels front peer other ++ parcels rest peer other :=
  List.filterMap_append

theorem parcels_letters (peer first a b : MessageT) (rest : List MessageT) :
    parcels (letters peer (first :: rest)) a b =
      (if peer = a ∧ first = b then [rest] else []).filterMap twoFrames := by
  match rest with
  | [header, body] =>
    by_cases h : peer = a ∧ first = b
    · rw [if_pos h, letters, parcels]
      simp [RouterSocket.ofThree, RouterMessage.ofFrames, twoFrames, h.1, h.2]
    · rw [if_neg h, letters, parcels]
      simp [RouterSocket.ofThree, RouterMessage.ofFrames, h]
  | [] => split <;> rfl
  | [_] => split <;> rfl
  | _ :: _ :: _ :: _ => split <;> rfl

/-- Nothing on its way between the peers has been lost. -/
def Intact (net : ZmqNetwork ε σ) (events : List RouterEvent) (a b : MessageT) : Prop :=
  net.mandatory a = true ∧ .sever a b ∉ events ∧ .sever b a ∉ events

theorem Intact.front {events rest : List RouterEvent} {a b : MessageT}
    (h : Intact net (events ++ rest) a b) : Intact net events a b :=
  ⟨h.1, fun hmem => h.2.1 (List.mem_append_left _ hmem),
    fun hmem => h.2.2 (List.mem_append_left _ hmem)⟩

/-- The channel from one peer to another. -/
def Carries (net : ZmqNetwork ε σ) (a b : MessageT) (events : List RouterEvent)
    (s : Routers σ) : Prop :=
  Conveys (Intact net events a b) (parcels s.accepted a b) (underway net s.zmq a b)
    (parcels s.received b a)

theorem underway_same {s t : σ} (h : net.Same s t) (a b : MessageT) :
    underway net t a b = underway net s a b := by
  rw [underway, underway, h]

theorem underway_routed {s t : σ} {sender target : MessageT} {rest : List MessageT}
    (h : net.Routed sender target rest s t) (a b : MessageT) :
    underway net t a b =
      underway net s a b ++ parcels (letters sender (target :: rest)) a b := by
  rw [underway, h, List.filterMap_append, parcels_letters]
  rfl

theorem underway_taken {s t : σ} {sender target : MessageT} {rest : List MessageT}
    (h : net.Taken sender target rest s t) (a b : MessageT) :
    underway net s a b =
      parcels (letters target (sender :: rest)) b a ++ underway net t a b := by
  rw [underway, h, List.filterMap_append, parcels_letters]
  simp only [and_comm]
  rfl

theorem step_carries (hroutes : net.Routes) {events : List RouterEvent} {s t : Routers σ}
    {e : RouterEvent} {a b : MessageT} (h : Carries net a b events s)
    (hstep : step net s e = some t) : Carries net a b (events ++ [e]) t := by
  have hfront := h.weaken fun hintact : Intact net (events ++ [e]) a b => hintact.front
  cases step_effect hroutes hstep with
  | nothing hsame =>
    rw [Carries, underway_same hsame]
    exact hfront
  | routed hrouted =>
    rw [Carries, underway_routed hrouted, parcels_append]
    exact hfront.give _
  | dropped hmandatory hsame =>
    rw [Carries, underway_same hsame, parcels_append]
    refine hfront.discard _ fun hne hintact => hne ?_
    by_cases hpeer : e.peer = a
    · rw [hmandatory (hpeer ▸ hintact.1)]
      rfl
    · refine List.filterMap_eq_nil_iff.mpr fun entry hentry => ?_
      obtain ⟨m, _, rfl⟩ := List.mem_map.mp hentry
      exact if_neg fun heq => hpeer heq.1
  | taken htaken =>
    rw [Carries, underway_taken htaken] at *
    rw [parcels_append]
    exact hfront.take
  | severed peer other =>
    have hlost : (underway net (net.sever peer other s.zmq) a b).Sublist
        (underway net s.zmq a b) := (hroutes.sever_sublist peer other s.zmq a b).filterMap _
    by_cases hbetween : (peer = a ∧ other = b) ∨ peer = b ∧ other = a
    · refine hfront.lose hlost fun hintact => ?_
      rcases hbetween with ⟨rfl, rfl⟩ | ⟨rfl, rfl⟩
      · exact hintact.2.1 (List.mem_append_right _ List.mem_cons_self)
      · exact hintact.2.2 (List.mem_append_right _ List.mem_cons_self)
    · have hsame : underway net (net.sever peer other s.zmq) a b = underway net s.zmq a b := by
        rw [underway, underway, hroutes.sever_other (fun h => hbetween (.inl h))
          (fun h => hbetween (.inr h))]
      rw [Carries, hsame]
      exact hfront

theorem run_carries (hroutes : net.Routes) {zmq : σ} (hquiet : ∀ a b, net.inFlight zmq a b = [])
    {events : List RouterEvent} {s : Routers σ} (hrun : (machine net zmq).run events = some s)
    (a b : MessageT) : Carries net a b events s := by
  refine Machine.run_induction (P := Carries net a b) ?_ ?_ hrun
  · have hnone : underway net zmq a b = [] := by
      rw [underway, hquiet]
      rfl
    show Conveys _ [] (underway net zmq a b) []
    rw [hnone]
    exact Conveys.start _
  · intro events s e t h hstep
    exact step_carries hroutes h hstep

/-- In every run, whatever the other peers put on the wire, what one peer has
received from another and what is still on its way are messages the other has
sent, in order and none twice.  They are all of them if the sender is mandatory
and their connection never broke. -/
theorem routers_deliver (hroutes : net.Routes) (zmq : σ)
    (hquiet : ∀ a b, net.inFlight zmq a b = []) (events : List RouterEvent) (s : Routers σ)
    (hrun : (machine net zmq).run events = some s) (a b : MessageT) :
    (parcels s.received b a ++ underway net s.zmq a b).Sublist (parcels s.accepted a b) ∧
      (net.mandatory a = true → .sever a b ∉ events → .sever b a ∉ events →
        parcels s.received b a ++ underway net s.zmq a b = parcels s.accepted a b) := by
  have hcarries := run_carries hroutes hquiet hrun a b
  exact ⟨hcarries.sound, fun hmandatory hout hback =>
    hcarries.complete ⟨hmandatory, hout, hback⟩⟩

/-! ## A post office

A network that keeps what is under way in one list and finds every address. -/

structure Letter where
  sender : MessageT
  target : MessageT
  frames : List MessageT
deriving DecidableEq, Repr

namespace Letter

def isFor (peer : MessageT) (l : Letter) : Bool := decide (l.target = peer)

def isBetween (a b : MessageT) (l : Letter) : Bool := decide (l.sender = a ∧ l.target = b)

theorem isBetween_iff {a b : MessageT} {l : Letter} :
    l.isBetween a b = true ↔ l.sender = a ∧ l.target = b := decide_eq_true_iff

end Letter

def between (a b : MessageT) (letters : List Letter) : List (List MessageT) :=
  (letters.filter (Letter.isBetween a b)).map Letter.frames

def postOffice : ZmqNetwork String (List Letter) where
  socket peer :=
    { moved := fun _ => MessageT.ofBytes []
      sendMultipart := fun frames =>
        match frames with
        | target :: rest => do
          update fun letters => letters ++ [{ sender := peer, target := target, frames := rest }]
          pure (some frames.length)
        | [] => pure (some 0)
      recvMultipart := do
        let letters ← self
        match letters.find? (Letter.isFor peer) with
        | none => pure none
        | some l => do
          update fun letters => letters.eraseP (Letter.isFor peer)
          pure (some (l.sender :: l.frames)) }
  mandatory _ := true
  inFlight letters a b := between a b letters
  sever a b letters := letters.filter fun l => !l.isBetween a b && !l.isBetween b a

theorem between_append (a b : MessageT) (front rest : List Letter) :
    between a b (front ++ rest) = between a b front ++ between a b rest := by
  rw [between, List.filter_append, List.map_append]
  rfl

theorem between_cons (a b : MessageT) (l : Letter) (letters : List Letter) :
    between a b (l :: letters) =
      (if l.sender = a ∧ l.target = b then [l.frames] else []) ++ between a b letters := by
  rw [between]
  by_cases h : l.sender = a ∧ l.target = b
  · rw [if_pos h, List.filter_cons_of_pos (Letter.isBetween_iff.mpr h)]
    rfl
  · rw [if_neg h, List.filter_cons_of_neg fun heq => h (Letter.isBetween_iff.mp heq)]
    rfl

/-- The first letter for a peer, from whomever it is. -/
theorem postOffice_taken {letters : List Letter} {peer : MessageT} {l : Letter}
    (h : letters.find? (Letter.isFor peer) = some l) :
    postOffice.Taken l.sender peer l.frames letters (letters.eraseP (Letter.isFor peer)) := by
  obtain ⟨hfor, front, back, rfl, hfront⟩ := List.find?_eq_some_iff_append.mp h
  have hpeer : l.target = peer := of_decide_eq_true hfor
  have hnone : ∀ l' ∈ front, ¬l'.isFor peer = true := by
    intro l' hmem hfor'
    have hfalse := hfront l' hmem
    rw [hfor'] at hfalse
    cases hfalse
  intro a b
  show between a b (front ++ l :: back) = _ ++ between a b (List.eraseP _ (front ++ l :: back))
  rw [List.eraseP_append_right _ hnone, List.eraseP_cons_of_pos hfor, between_append,
    between_append, between_cons, hpeer]
  by_cases hb : peer = b
  · -- No letter before it is between the two.
    have hnil : between a b front = [] := by
      refine List.map_eq_nil_iff.mpr (List.filter_eq_nil_iff.mpr fun l' hmem hbetween => ?_)
      refine hnone l' hmem (decide_eq_true ?_)
      exact (Letter.isBetween_iff.mp hbetween).2.trans hb.symm
    rw [hnil, List.nil_append, List.nil_append]
  · rw [if_neg fun heq => hb heq.2, List.nil_append, List.nil_append]

theorem postOffice_recv (peer : MessageT) (letters : List Letter) :
    (postOffice.socket peer).recvMultipart.run letters =
      match letters.find? (Letter.isFor peer) with
      | none => .ok none letters
      | some l => .ok (some (l.sender :: l.frames)) (letters.eraseP (Letter.isFor peer)) := by
  simp only [postOffice, run_bind, run_self, Exit.andThen_ok]
  cases letters.find? (Letter.isFor peer) <;> rfl

theorem postOffice_routes : postOffice.Routes where
  send_ok := by
    intro peer frames letters n t h
    cases frames with
    | nil =>
      cases h
      exact .inr ⟨fun _ => Nat.zero_le 1, fun _ _ => rfl⟩
    | cons target rest =>
      cases h
      refine .inl ⟨target, rest, rfl, fun a b => ?_⟩
      show between a b (letters ++ [_]) = between a b letters ++ _
      rw [between_append, between_cons]
      exact congrArg _ (List.append_nil _)
  send_none := by
    intro peer frames letters t h
    cases frames <;> cases h
  send_thrown := by
    intro peer frames letters e t h
    cases frames <;> cases h
  recv_ok := by
    intro peer letters frames t h
    rw [postOffice_recv] at h
    split at h
    · cases h
    · next l hfind =>
      cases h
      exact ⟨l.sender, l.frames, rfl, postOffice_taken hfind⟩
  recv_none := by
    intro peer letters t h
    rw [postOffice_recv] at h
    split at h
    · cases h
      exact fun _ _ => rfl
    · cases h
  recv_thrown := by
    intro peer letters e t h
    rw [postOffice_recv] at h
    split at h <;> cases h
  sever_sublist a b letters x y := (List.filter_sublist.filter _).map _
  sever_other := by
    intro a b x y hout hback letters
    show between x y (letters.filter _) = between x y letters
    rw [between, between, List.filter_filter]
    congr 1
    refine List.filter_congr fun l _ => ?_
    by_cases hbetween : l.isBetween x y = true
    · obtain ⟨rfl, rfl⟩ := Letter.isBetween_iff.mp hbetween
      have hout' : l.isBetween a b = false := decide_eq_false fun h => hout ⟨h.1.symm, h.2.symm⟩
      have hback' : l.isBetween b a = false := decide_eq_false fun h => hback ⟨h.2.symm, h.1.symm⟩
      rw [hbetween, hout', hback']
      rfl
    · rw [Bool.eq_false_iff.mpr hbetween, Bool.false_and]

/-- A server that answers under `[1]`, a client under `[2]` and a peer under `[3]`. -/
def address (n : UInt8) : MessageT := MessageT.ofBytes [n]

/-- The server gets two requests and a frame too few from somebody else. -/
def twoRequests : List RouterEvent :=
  [.send (address 2) (RouterMessage.ofStrings [1] [10] (MessageT.ofBytes [20])),
    .transmit (address 3) [address 1, MessageT.ofBytes [30]],
    .send (address 2) (RouterMessage.ofStrings [1] [11] (MessageT.ofBytes [21])),
    .recv (address 1), .recv (address 1)]

def afterTwoRequests : Routers (List Letter) where
  zmq := [{ sender := address 2, target := address 1
            frames := [MessageT.ofBytes [11], MessageT.ofBytes [21]] }]
  accepted := [(address 2, RouterMessage.ofStrings [1] [10] (MessageT.ofBytes [20])),
    (address 2, RouterMessage.ofStrings [1] [11] (MessageT.ofBytes [21]))]
  received := [(address 1, RouterMessage.ofStrings [2] [10] (MessageT.ofBytes [20]))]

theorem routers_deliver_twoRequests :
    (machine postOffice []).run twoRequests = some afterTwoRequests ∧
      (parcels afterTwoRequests.received (address 1) (address 2)).length = 1 ∧
      (parcels afterTwoRequests.accepted (address 2) (address 1)).length = 2 ∧
      (parcels afterTwoRequests.received (address 1) (address 2) ++
          underway postOffice afterTwoRequests.zmq (address 2) (address 1)).Sublist
        (parcels afterTwoRequests.accepted (address 2) (address 1)) ∧
      parcels afterTwoRequests.received (address 1) (address 2) ++
          underway postOffice afterTwoRequests.zmq (address 2) (address 1) =
        parcels afterTwoRequests.accepted (address 2) (address 1) := by
  have hdeliver := routers_deliver postOffice_routes [] (fun _ _ => rfl) twoRequests
    afterTwoRequests rfl (address 2) (address 1)
  exact ⟨rfl, rfl, rfl, hdeliver.1, hdeliver.2 rfl (by decide) (by decide)⟩

end Routers

end PlaySocket
