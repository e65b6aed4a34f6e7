import Mathlib.Data.List.Induction
import PlaySocket.StreamSocket.Callbacks

/-!
# What `send` delivers

Calls on one `StreamSocket`, in any order, against a registry that is a map from
sids to sessions and nothing else.  A send owes the session registered under the
sid of its message that message's body, if both are there.

It hands over what it owes, but for two things.  To a registered session it
follows the body's pointer without a look at it, and `body()` gives a null one
for a message without a body and for one whose body has been taken.  And neither
of its branches returns a value.
-/

namespace PlaySocket

open Exec

inductive SocketCall where
  | addSession (sid : Int64) (session : ConnectionId)
  | removeSession (sid : Int64)
  | send (message : ClientMessage)

namespace SocketCall

/-- The call on the socket.  A send tells what it did. -/
def exec (t : Transport) : SocketCall → Exec StdException StreamSocket (Option Sent)
  | addSession sid session => do
    update fun s => t.addSession s sid session
    pure none
  | removeSession sid => do
    update fun s => t.removeSession s sid
    pure none
  | send message => do
    let s ← self
    match t.send s message with
    | .ok sent => pure (some sent)
    | .error w => undefined w

/-- The call on the map.  A sid keeps the session it was registered with first. -/
def register (registry : Int64 → Option ConnectionId) : SocketCall → Int64 → Option ConnectionId
  | addSession sid session =>
    match registry sid with
    | some _ => registry
    | none => Function.update registry sid (some session)
  | removeSession sid => Function.update registry sid none
  | send _ => registry

end SocketCall

namespace StreamSocket

variable {t : Transport} {s s' : StreamSocket} {message : ClientMessage}

/-- The sessions registered after some calls. -/
def registered (calls : List SocketCall) : Int64 → Option ConnectionId :=
  calls.foldl SocketCall.register fun _ => none

theorem registered_concat (calls : List SocketCall) (call : SocketCall) :
    registered (calls ++ [call]) = call.register (registered calls) := by
  rw [registered, List.foldl_append]
  rfl

/-- What a send behind the calls `front` should hand over, and to whom. -/
def owed (front : List SocketCall) (message : ClientMessage) : Option (ConnectionId × MessageT) :=
  match registered front message.sid, message.body with
  | some session, some body => some (session, body)
  | _, _ => none

/-! ## One call -/

theorem send_registered {session : ConnectionId} {body : MessageT}
    (hfound : s.sessions.lookup message.sid = some session) (hbody : message.body = some body) :
    t.send s message = .ok
      { handed := some (session, body), returned := none,
        message := { message with body := none } } := by
  simp only [t.send_eq, send, hfound, ClientMessage.takeBody, hbody]

theorem send_unregistered (hfound : s.sessions.lookup message.sid = none) :
    t.send s message = .ok { handed := none, returned := none, message := message } := by
  simp only [t.send_eq, send, hfound]

theorem send_bodiless {session : ConnectionId}
    (hfound : s.sessions.lookup message.sid = some session) (hbody : message.body = none) :
    t.send s message = .error .nullPointer := by
  simp only [t.send_eq, send, hfound, ClientMessage.takeBody, hbody]

/-- Whatever a send does, it returns nothing. -/
theorem send_returned {sent : Sent} (h : t.send s message = .ok sent) : sent.returned = none := by
  cases hfound : s.sessions.lookup message.sid with
  | none =>
    rw [send_unregistered hfound] at h
    cases h
    rfl
  | some session =>
    cases hbody : message.body with
    | none =>
      rw [send_bodiless hfound hbody] at h
      cases h
    | some body =>
      rw [send_registered hfound hbody] at h
      cases h
      rfl

theorem addSession_registers (s : StreamSocket) (sid : Int64) (session : ConnectionId) :
    (fun other => (s.addSession sid session).sessions.lookup other) =
      SocketCall.register (fun other => s.sessions.lookup other) (.addSession sid session) := by
  funext other
  rw [lookup_addSession]
  by_cases hother : other = sid
  · subst hother
    cases hfound : s.sessions.lookup other with
    | some old => simp only [SocketCall.register, hfound, if_true, Option.getD_some]
    | none =>
      simp only [SocketCall.register, hfound, if_true, Option.getD_none, Function.update_self]
  · cases hfound : s.sessions.lookup sid with
    | some old => simp only [SocketCall.register, hfound, if_neg hother]
    | none => simp only [SocketCall.register, hfound, if_neg hother, Function.update_of_ne hother]

theorem removeSession_registers (s : StreamSocket) (sid : Int64) :
    (fun other => (s.removeSession sid).sessions.lookup other) =
      SocketCall.register (fun other => s.sessions.lookup other) (.removeSession sid) := by
  funext other
  rw [lookup_removeSession, SocketCall.register]
  by_cases hother : other = sid
  · rw [if_pos hother, hother, Function.update_self]
  · rw [if_neg hother, Function.update_of_ne hother]

/-- The step lemma: a call that does not fault does to the registry what it does
to the map. -/
theorem exec_registers {call : SocketCall} {result : Except StdException (Option Sent)}
    (hrun : outcome ((call.exec t).run s) = some (result, s')) :
    (fun sid => s'.sessions.lookup sid) = call.register fun sid => s.sessions.lookup sid := by
  cases call with
  | addSession sid session =>
    cases hrun
    rw [t.addSession_eq]
    exact addSession_registers s sid session
  | removeSession sid =>
    cases hrun
    rw [t.removeSession_eq]
    exact removeSession_registers s sid
  | send message =>
    rw [SocketCall.exec, run_bind, run_self, Exit.andThen_ok] at hrun
    cases hsend : t.send s message with
    | ok sent =>
      rw [hsend] at hrun
      cases hrun
      rfl
    | error w =>
      rw [hsend] at hrun
      cases hrun

theorem run_registered (t : Transport) (calls : List SocketCall) :
    ∀ {results : List (Except StdException (Option Sent))} {s : StreamSocket},
      runAll (calls.map (SocketCall.exec t)) new = some (results, s) →
      (fun sid => s.sessions.lookup sid) = registered calls := by
  induction calls using List.reverseRecOn with
  | nil =>
    intro results s hrun
    cases hrun
    rfl
  | append_singleton calls call ih =>
    intro results s hrun
    rw [List.map_append] at hrun
    obtain ⟨front, s₁, result, hfront, hlast, _⟩ := runAll_concat_cases hrun
    rw [registered_concat, ← ih hfront]
    exact exec_registers hlast

/-! ## Sequences of calls -/

/-- Every send of the sequence is reached, hands over what it owes, leaves the
registry alone, and satisfies `good`. -/
def EverySend (t : Transport) (good : Option (ConnectionId × MessageT) → Sent → Prop)
    (calls : List SocketCall) : Prop :=
  ∀ front message back, calls = front ++ .send message :: back →
    ∃ results s sent, runAll (front.map (SocketCall.exec t)) new = some (results, s) ∧
      ((SocketCall.send message).exec t).run s = .ok (some sent) s ∧
      sent.handed = owed front message ∧ good (owed front message) sent

/-- Every send hands over what it owes, and follows no null body. -/
def HandsOver (t : Transport) : List SocketCall → Prop := EverySend t fun _ _ => True

/-- Every send hands over what it owes and returns whether it did. -/
def Delivers (t : Transport) : List SocketCall → Prop :=
  EverySend t fun handed sent => sent.returned = some handed.isSome

/-- Every send is of a message with a body or goes to a sid without a session. -/
def Sendable (calls : List SocketCall) : Prop :=
  ∀ front message back, calls = front ++ .send message :: back →
    message.body ≠ none ∨ registered front message.sid = none

theorem Sendable.front {calls : List SocketCall} {call : SocketCall}
    (h : Sendable (calls ++ [call])) : Sendable calls := by
  intro front message back hcalls
  refine h front message (back ++ [call]) ?_
  rw [hcalls, List.append_assoc, List.cons_append]

/-- A send that may be made hands over what it owes. -/
theorem send_owed {front : List SocketCall}
    (hregistry : (fun sid => s.sessions.lookup sid) = registered front)
    (hsendable : message.body ≠ none ∨ registered front message.sid = none) :
    ∃ sent, ((SocketCall.send message).exec t).run s = .ok (some sent) s ∧
      sent.handed = owed front message := by
  have hlookup : s.sessions.lookup message.sid = registered front message.sid :=
    congrFun hregistry message.sid
  simp only [SocketCall.exec, run_bind, run_self, Exit.andThen_ok, owed]
  cases hfound : registered front message.sid with
  | none =>
    rw [send_unregistered (hlookup.trans hfound)]
    exact ⟨_, rfl, rfl⟩
  | some session =>
    cases hbody : message.body with
    | none =>
      rcases hsendable with hne | hnone
      · exact absurd hbody hne
      · rw [hfound] at hnone
        cases hnone
    | some body =>
      rw [send_registered (hlookup.trans hfound) hbody]
      exact ⟨_, rfl, rfl⟩

/-- A send of a message without a body to a registered session faults. -/
theorem send_faults {front : List SocketCall}
    (hregistry : (fun sid => s.sessions.lookup sid) = registered front)
    (hbody : message.body = none) (hfound : registered front message.sid ≠ none) :
    ((SocketCall.send message).exec t).run s = .fault .nullPointer := by
  obtain ⟨session, hsession⟩ := Option.ne_none_iff_exists'.mp hfound
  have hlookup : s.sessions.lookup message.sid = some session :=
    (congrFun hregistry message.sid).trans hsession
  simp only [SocketCall.exec, run_bind, run_self, Exit.andThen_ok,
    send_bodiless hlookup hbody, run_undefined]

/-- A sequence whose sends may all be made runs to its end. -/
theorem Sendable.run (t : Transport) {calls : List SocketCall} (h : Sendable calls) :
    ∃ results s, runAll (calls.map (SocketCall.exec t)) new = some (results, s) := by
  induction calls using List.reverseRecOn with
  | nil => exact ⟨[], new, rfl⟩
  | append_singleton calls call ih =>
    obtain ⟨results, s, hrun⟩ := ih h.front
    rw [List.map_append]
    have hexec : ∃ sent s', (call.exec t).run s = .ok sent s' := by
      cases call with
      | addSession sid session => exact ⟨none, _, rfl⟩
      | removeSession sid => exact ⟨none, _, rfl⟩
      | send message =>
        obtain ⟨sent, hsend, _⟩ := send_owed (t := t) (run_registered t calls hrun)
          (h calls message [] rfl)
        exact ⟨some sent, s, hsend⟩
    obtain ⟨sent, s', hexec⟩ := hexec
    exact ⟨_, s', runAll_concat_ok hrun hexec⟩

theorem handsOver_iff (t : Transport) (calls : List SocketCall) :
    HandsOver t calls ↔ Sendable calls := by
  constructor
  · intro hhands front message back hcalls
    by_contra hnot
    have hbody : message.body = none := by
      by_contra hne
      exact hnot (.inl hne)
    obtain ⟨results, s, sent, hrun, hsend, _⟩ := hhands front message back hcalls
    rw [send_faults (run_registered t front hrun) hbody fun hnone => hnot (.inr hnone)] at hsend
    cases hsend
  · intro hsendable front message back hcalls
    have hfront : Sendable front := by
      intro front' message' back' hfront
      refine hsendable front' message' (back' ++ .send message :: back) ?_
      rw [hcalls, hfront, List.append_assoc, List.cons_append]
    obtain ⟨results, s, hrun⟩ := hfront.run t
    obtain ⟨sent, hsend, howed⟩ := send_owed (t := t) (run_registered t front hrun)
      (hsendable front message back hcalls)
    exact ⟨results, s, sent, hrun, hsend, howed, trivial⟩

theorem delivers_iff (t : Transport) (calls : List SocketCall) :
    Delivers t calls ↔ ∀ message, .send message ∉ calls := by
  constructor
  · intro hdelivers message hmem
    obtain ⟨front, back, hcalls⟩ := List.append_of_mem hmem
    obtain ⟨results, s, sent, _, hsend, _, hreturned⟩ := hdelivers front message back hcalls
    rw [SocketCall.exec, run_bind, run_self, Exit.andThen_ok] at hsend
    cases hsent : t.send s message with
    | ok sent' =>
      rw [hsent] at hsend
      cases hsend
      rw [send_returned hsent] at hreturned
      cases hreturned
    | error w =>
      rw [hsent] at hsend
      cases hsend
  · intro hnone front message back hcalls
    refine absurd ?_ (hnone message)
    rw [hcalls]
    exact List.mem_append_right _ List.mem_cons_self

/-- The sends of a sequence do all that is asked of them exactly if there are
none.  But for the returned value they do exactly if none is of a message without
a body to a registered sid. -/
theorem send_delivers_iff (t : Transport) (calls : List SocketCall) :
    (Delivers t calls ↔ ∀ message, .send message ∉ calls) ∧
      (HandsOver t calls ↔ Sendable calls) :=
  ⟨delivers_iff t calls, handsOver_iff t calls⟩

/-- A body is handed over and no value returned, and a message such as `recv`
gives on a connection is followed into its null body. -/
theorem send_connect_faults :
    (∃ s sent, runAll ([SocketCall.addSession 5 1].map (SocketCall.exec .tcp)) new =
        some ([.ok none], s) ∧
      ((SocketCall.send (ClientMessage.ofBody 5
        { serviceId := 1, msgId := 2, msgSeq := 3, stageIndex := 4 }
        (some { data := #[7] }))).exec .tcp).run s = .ok (some sent) s ∧
      sent.handed = some (1, { data := #[7] }) ∧ sent.returned = none) ∧
    runAll ([SocketCall.addSession 5 1, .send (ClientMessage.ofType 5 .connect)].map
      (SocketCall.exec .tcp)) new = none :=
  ⟨⟨_, _, rfl, rfl, rfl, rfl⟩, rfl⟩

end StreamSocket

end PlaySocket
