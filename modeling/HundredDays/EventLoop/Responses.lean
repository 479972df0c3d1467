import HundredDays.EventLoop.Model
import HundredDays.Semantics.Run

namespace HundredDays.EventLoop

open HundredDays.Semantics

/-! What is sent is the part of the response before `write_pos`, as long as no event
starts the response again. -/

variable {conn after : Conn} {client : Client} {event : Event} {results : List WriteResult} {st : ConnState}

/-! ### The reactor does what the loop does -/

/-- The memory of the handler as that of a connection. -/
def Client.asConn (client : Client) : Conn where
  state := client.handler.map fun handler =>
    { writeBuf := handler.writeBuf, writeLen := handler.writeBuf.length, writePos := handler.writePos }
  frees := client.destroyed
  isOpen := client.isOpen
  registered := client.registered
  sent := client.sent

theorem removeHandler_release :
    (removeHandler client >>= release).map Client.asConn = closeConn client.asConn := by
  cases client with
  | mk handler destroyed isOpen registered inHandlers sent => cases handler <;> rfl

theorem release_listed (listed : client.inHandlers = true) : release client = .ok client := by
  rw [release, if_pos listed]

theorem writeFrom_conn (client : Client) (results : List WriteResult) :
    (writeFrom client results).map (fun result => (result.1, result.2.asConn)) = writeLoop client.asConn results ∧
      ∀ failed next, writeFrom client results = .ok (failed, next) →
        next.inHandlers = client.inHandlers ∧ next.registered = client.registered := by
  induction results generalizing client with
  | nil =>
      obtain ⟨handler, destroyed, isOpen, registered, inHandlers, sent⟩ := client
      cases handler with
      | none => exact ⟨rfl, fun failed next finished => by cases finished⟩
      | some handler =>
          by_cases more : handler.writePos < handler.writeBuf.length
          · simp [writeFrom, writeLoop, Client.asConn, more, Except.map]
          · simp [writeFrom, writeLoop, Client.asConn, more, Except.map]
  | cons result rest ih =>
      obtain ⟨handler, destroyed, isOpen, registered, inHandlers, sent⟩ := client
      cases handler with
      | none => exact ⟨rfl, fun failed next finished => by cases finished⟩
      | some handler =>
          by_cases more : handler.writePos < handler.writeBuf.length
          · cases result with
            | again => simp [writeFrom, writeLoop, Client.asConn, more, Except.map]
            | error => simp [writeFrom, writeLoop, Client.asConn, more, Except.map]
            | count n =>
                by_cases fits : n ≤ handler.writeBuf.length - handler.writePos
                · have later := ih
                    ⟨some { handler with writePos := handler.writePos + n }, destroyed, isOpen, registered, inHandlers,
                      sent ++ (handler.writeBuf.drop handler.writePos).take n⟩
                  rw [writeFrom, writeLoop]
                  simp only [Client.asConn, Option.map_some, if_pos more, if_pos fits] at later ⊢
                  exact later
                · simp [writeFrom, writeLoop, Client.asConn, more, fits, Except.map]
          · simp [writeFrom, writeLoop, Client.asConn, more, Except.map]

theorem handleWrite_release (listed : client.inHandlers = true) (results : List WriteResult) :
    (handleWrite client results >>= release).map Client.asConn = flush client.asConn results := by
  obtain ⟨same, kept⟩ := writeFrom_conn client results
  rw [handleWrite, flush, ← same]
  cases written : writeFrom client results with
  | error stop => rfl
  | ok result =>
      obtain ⟨failed, next⟩ := result
      have still := (kept failed next written).1
      rw [listed] at still
      obtain ⟨handler, destroyed, isOpen, registered, inHandlers, sent⟩ := next
      cases handler with
      | none => cases failed <;> rfl
      | some handler =>
          have closes := @removeHandler_release ⟨some handler, destroyed, isOpen, registered, inHandlers, sent⟩
          cases failed with
          | true => exact closes
          | false =>
              by_cases whole : handler.writePos = handler.writeBuf.length
              · simp only [Except.map, bind, Except.bind, Client.asConn, Option.map_some, if_pos whole] at closes ⊢
                exact closes
              · cases still
                simp [Except.map, bind, Except.bind, pure, Except.pure, Client.asConn, whole, release]

theorem handleRead_closed {reads : List ReadResult} (closed : readLoop reads = .ok true) :
    handleRead client reads = removeHandler client := by
  rw [handleRead, closed]
  rfl

/-- A client whose handler has prepared the response. -/
def Client.prepared (client : Client) : Client := { client with handler := some { writeBuf := response, writePos := 0 } }

theorem handleRead_open {reads : List ReadResult} (opened : readLoop reads = .ok false) (present : client.handler ≠ none) :
    handleRead client reads = .ok client.prepared := by
  obtain ⟨handler, found⟩ := Option.ne_none_iff_exists'.mp present
  rw [handleRead, opened]
  simp only [bind, Except.bind, found, Bool.false_eq_true, if_false]
  rfl

theorem prepare_conn (present : client.handler ≠ none) : prepare client.asConn = .ok client.prepared.asConn := by
  obtain ⟨handler, found⟩ := Option.ne_none_iff_exists'.mp present
  simp only [prepare, Client.asConn, Client.prepared, found, Option.map_some]

/-- The part of a round that follows the reading. -/
def writeRound (client : Client) (event : Event) : Except Stop Client := do
  let client ← if event.epollout && client.inHandlers then handleWrite client event.writes else pure client
  release client

theorem writeRound_conn (listed : client.inHandlers = true) (event : Event) :
    (writeRound client event).map Client.asConn =
      if event.epollout then flush client.asConn event.writes else .ok client.asConn := by
  rw [writeRound, listed, Bool.and_true]
  by_cases out : event.epollout = true
  · rw [if_pos out, if_pos out]
    exact handleWrite_release listed event.writes
  · rw [if_neg out, if_neg out]
    change (release client).map Client.asConn = _
    rw [release_listed listed]
    rfl

/-- A handler that the reading removed is destroyed at the end of the round. -/
theorem removeHandler_writeRound (event : Event) :
    removeHandler client >>= (writeRound · event) = removeHandler client >>= release := by
  obtain ⟨handler, destroyed, isOpen, registered, inHandlers, sent⟩ := client
  cases handler with
  | none => rfl
  | some handler => simp [removeHandler, writeRound, bind, Except.bind, pure, Except.pure]

theorem runEvent_unfailed (registered : client.registered = true) (listed : client.inHandlers = true)
    (unfailed : ¬ event.failed = true) :
    runEvent client event =
      (if event.epollin then handleRead client event.reads else pure client) >>= (writeRound · event) := by
  rw [runEvent, if_pos registered, listed]
  simp only [Bool.not_true, Bool.false_eq_true, if_false, if_neg unfailed]
  by_cases readable : event.epollin = true
  · rw [if_pos readable, if_pos readable]
    rfl
  · rw [if_neg readable, if_neg readable]
    rfl

theorem readLoop_error {reads : List ReadResult} {stop : Stop} (read : readLoop reads = .error stop) :
    stop = .absent := by
  induction reads with
  | nil =>
      cases read
      rfl
  | cons result rest ih =>
      cases result with
      | again => cases read
      | error => cases read
      | count n =>
          simp only [readLoop] at read
          split_ifs at read with eof
          exact ih read

/-- A round of the reactor does to the client what the loop does to the connection. -/
theorem runEvent_conn (listed : client.inHandlers = client.registered) (event : Event) :
    (runEvent client event).map Client.asConn = handleEvent client.asConn event := by
  have known : client.asConn.registered = client.registered := rfl
  rw [runEvent, handleEvent, known]
  by_cases registered : client.registered = true
  · rw [registered] at listed
    rw [if_pos registered, if_pos registered, listed]
    by_cases failed : event.failed = true
    · rw [if_pos failed]
      simp only [failed, if_true, handleError]
      exact removeHandler_release
    · have round := runEvent_unfailed registered listed failed
      rw [runEvent, if_pos registered, listed] at round
      rw [round, if_neg failed]
      by_cases readable : event.epollin = true
      · rw [if_pos readable, if_pos readable]
        cases read : readLoop event.reads with
        | error stop =>
            rw [handleRead, read]
            rfl
        | ok closed =>
            cases closed with
            | true =>
                rw [handleRead_closed read, removeHandler_writeRound]
                exact removeHandler_release
            | false =>
                by_cases present : client.handler = none
                · simp [handleRead, read, prepare, Client.asConn, present, bind, Except.bind, Except.map]
                · rw [handleRead_open read present]
                  simp only [bind, Except.bind, Bool.false_eq_true, if_false, prepare_conn present]
                  exact @writeRound_conn client.prepared listed event
      · rw [if_neg readable, if_neg readable]
        exact writeRound_conn listed event
  · rw [if_neg registered, if_neg registered]
    rfl

theorem bind_ok {α β : Type} {first : Except Stop α} {then' : α → Except Stop β} {result : β}
    (both : first >>= then' = .ok result) : ∃ middle, first = .ok middle ∧ then' middle = .ok result := by
  cases first with
  | error stop => cases both
  | ok middle => exact ⟨middle, rfl, both⟩

theorem removeHandler_listed {next : Client} (removed : removeHandler client = .ok next) :
    next.inHandlers = next.registered := by
  obtain ⟨handler, destroyed, isOpen, registered, inHandlers, sent⟩ := client
  cases handler with
  | none => cases removed
  | some handler =>
      cases removed
      rfl

theorem release_keeps {next : Client} (released : release client = .ok next) :
    next.inHandlers = client.inHandlers ∧ next.registered = client.registered := by
  obtain ⟨handler, destroyed, isOpen, registered, inHandlers, sent⟩ := client
  cases inHandlers <;> cases handler <;> cases released <;> exact ⟨rfl, rfl⟩

theorem handleWrite_listed {next : Client} (listed : client.inHandlers = client.registered)
    (written : handleWrite client results = .ok next) : next.inHandlers = next.registered := by
  obtain ⟨⟨failed, middle⟩, wrote, rest⟩ := bind_ok written
  have kept := (writeFrom_conn client results).2 failed middle wrote
  have still : middle.inHandlers = middle.registered := by rw [kept.1, kept.2, listed]
  cases failed with
  | true => exact removeHandler_listed rest
  | false =>
      simp only [Bool.false_eq_true, if_false] at rest
      cases handler : middle.handler with
      | none =>
          rw [handler] at rest
          cases rest
      | some found =>
          rw [handler] at rest
          simp only at rest
          split_ifs at rest with whole
          · exact removeHandler_listed rest
          · cases rest
            exact still

theorem handleRead_listed {reads : List ReadResult} {next : Client} (listed : client.inHandlers = client.registered)
    (finished : handleRead client reads = .ok next) : next.inHandlers = next.registered := by
  obtain ⟨closed, _, rest⟩ := bind_ok finished
  cases closed with
  | true => exact removeHandler_listed rest
  | false =>
      obtain ⟨handler, destroyed, isOpen, registered, inHandlers, sent⟩ := client
      cases handler with
      | none => cases rest
      | some handler =>
          cases rest
          exact listed

/-- The map and the kernel stay together. -/
theorem runEvent_listed {next : Client} (listed : client.inHandlers = client.registered)
    (handled : runEvent client event = .ok next) : next.inHandlers = next.registered := by
  by_cases registered : client.registered = true
  · by_cases failed : event.failed = true
    · rw [runEvent, if_pos registered, listed, registered] at handled
      simp only [failed, Bool.not_true, Bool.false_eq_true, if_false, if_true] at handled
      obtain ⟨middle, removed, released⟩ := bind_ok handled
      have kept := release_keeps released
      rw [kept.1, kept.2, removeHandler_listed removed]
    · rw [runEvent_unfailed registered (listed.trans registered) failed] at handled
      obtain ⟨middle, read, rest⟩ := bind_ok handled
      have first : middle.inHandlers = middle.registered := by
        by_cases readable : event.epollin = true
        · rw [if_pos readable] at read
          exact handleRead_listed listed read
        · rw [if_neg readable] at read
          cases read
          exact listed
      rw [writeRound] at rest
      split_ifs at rest with out
      · obtain ⟨last, written, released⟩ := bind_ok rest
        have kept := release_keeps released
        rw [kept.1, kept.2, handleWrite_listed first written]
      · have kept := release_keeps rest
        rw [kept.1, kept.2, first]
  · rw [runEvent, if_neg registered] at handled
    cases handled

/-! ### One event -/

/-- What was sent is what the position says. -/
structure Sending (st : ConnState) (sent : List UInt8) : Prop where
  buffer : (st.writeBuf = [] ∧ st.writePos = 0) ∨ st.writeBuf = response
  length : st.writeLen = st.writeBuf.length
  position : st.writePos ≤ st.writeLen
  sent : sent = response.take st.writePos

/-- An open connection has its memory and something left to send; a closed one has
none and was freed once. -/
inductive Kept (conn : Conn) : Prop where
  | alive (st : ConnState) (state : conn.state = some st) (frees : conn.frees = 0) (isOpen : conn.isOpen = true)
      (registered : conn.registered = true) (sending : Sending st conn.sent) (part : st.writePos < response.length)
  | closed (state : conn.state = none) (frees : conn.frees = 1) (isOpen : conn.isOpen = false)
      (registered : conn.registered = false) (sent : conn.sent <+: response)

theorem response_positive : 0 < response.length := by decide +kernel

theorem start_kept : Kept Conn.start :=
  .alive _ rfl rfl rfl rfl ⟨.inl ⟨rfl, rfl⟩, rfl, Nat.le_refl _, rfl⟩ response_positive

/-- While an event is handled, all of the response may have been sent. -/
structure Handling (conn : Conn) (st : ConnState) : Prop where
  state : conn.state = some st
  frees : conn.frees = 0
  isOpen : conn.isOpen = true
  registered : conn.registered = true
  sending : Sending st conn.sent

/-- The bytes written are the next ones. -/
theorem Sending.write {sent : List UInt8} {n : Nat} (sending : Sending st sent) (more : st.writePos < st.writeLen)
    (fits : n ≤ st.writeLen - st.writePos) :
    Sending { st with writePos := st.writePos + n } (sent ++ (st.writeBuf.drop st.writePos).take n) := by
  obtain ⟨buffer, length, _, before⟩ := sending
  rcases buffer with ⟨empty, _⟩ | full
  · rw [length, empty] at more
    exact absurd more (Nat.not_lt_zero _)
  · refine ⟨.inr full, length, ?_, ?_⟩
    · change st.writePos + n ≤ st.writeLen
      omega
    · rw [before, full, ← List.take_add]

theorem Handling.close (handling : Handling conn st) : ∃ after, closeConn conn = .ok after ∧ Kept after := by
  refine ⟨{ conn with state := none, frees := conn.frees + 1, isOpen := false, registered := false }, ?_, ?_⟩
  · rw [closeConn, handling.state]
  · refine .closed rfl (by rw [handling.frees]) rfl rfl ?_
    rw [handling.sending.sent]
    exact List.take_prefix ..

theorem Handling.prepare (handling : Handling conn st) (unsent : st.writePos = 0) :
    ∃ after, prepare conn = .ok after ∧ Handling after { writeBuf := response, writeLen := response.length, writePos := 0 } := by
  have none : conn.sent = response.take 0 := by rw [handling.sending.sent, unsent]
  refine ⟨{ conn with state := some { writeBuf := response, writeLen := response.length, writePos := 0 } }, ?_, ?_⟩
  · rw [EventLoop.prepare, handling.state]
  · exact ⟨rfl, handling.frees, handling.isOpen, handling.registered, ⟨.inr rfl, rfl, Nat.zero_le _, none⟩⟩

theorem Handling.writeLoop (handling : Handling conn st) (results : List WriteResult) :
    writeLoop conn results = .error .absent ∨
      ∃ failed after final, writeLoop conn results = .ok (failed, after) ∧ Handling after final := by
  induction results generalizing conn st with
  | nil =>
      simp only [EventLoop.writeLoop, handling.state]
      split_ifs with more
      · exact .inl rfl
      · exact .inr ⟨false, conn, st, rfl, handling⟩
  | cons result rest ih =>
      rw [EventLoop.writeLoop]
      simp only [handling.state]
      split_ifs with more
      · cases result with
        | again => exact .inr ⟨false, conn, st, rfl, handling⟩
        | error => exact .inr ⟨true, conn, st, rfl, handling⟩
        | count n =>
            simp only
            split_ifs with fits
            · refine ih ⟨rfl, handling.frees, handling.isOpen, handling.registered, ?_⟩
              exact handling.sending.write more fits
            · exact .inl rfl
      · exact .inr ⟨false, conn, st, rfl, handling⟩

/-- The event is handled to its end, and what is kept is kept, unless the environment
gave no further result. -/
def Handled (result : Except Stop Conn) : Prop := result = .error .absent ∨ ∃ after, result = .ok after ∧ Kept after

theorem Handling.flush (handling : Handling conn st) (results : List WriteResult) : Handled (flush conn results) := by
  rcases handling.writeLoop results with absent | ⟨failed, after, final, written, next⟩
  · left
    rw [EventLoop.flush, absent]
    rfl
  · right
    have rest : EventLoop.flush conn results =
        if failed then closeConn after else if final.writePos = final.writeLen then closeConn after else .ok after := by
      rw [EventLoop.flush, written]
      simp only [bind, Except.bind, next.state]
      rfl
    rw [rest]
    split_ifs with failure whole
    · exact next.close
    · exact next.close
    · refine ⟨after, rfl, .alive final next.state next.frees next.isOpen next.registered next.sending ?_⟩
      obtain ⟨buffer, length, position, _⟩ := next.sending
      rcases buffer with ⟨empty, start⟩ | full
      · rw [empty] at length
        exact absurd (start.trans length.symm) whole
      · rw [full] at length
        omega

/-- The event reads everything there is and starts the response. -/
def Event.restarts (event : Event) : Prop :=
  event.failed = false ∧ event.epollin = true ∧ readLoop event.reads = .ok false

instance (event : Event) : Decidable event.restarts := by
  unfold Event.restarts
  infer_instance

/-- The response is started only while nothing of it was written. -/
def Unbroken (conn : Conn) (event : Event) : Prop :=
  event.restarts → ∀ st, conn.state = some st → st.writePos = 0

theorem Kept.handleEvent (kept : Kept conn) (unbroken : Unbroken conn event) : Handled (handleEvent conn event) := by
  cases kept with
  | closed state frees isOpen registered sent =>
      left
      rw [EventLoop.handleEvent, registered]
      rfl
  | alive st state frees isOpen registered sending part =>
      have handling : Handling conn st := ⟨state, frees, isOpen, registered, sending⟩
      rw [EventLoop.handleEvent, if_pos registered]
      have stays : Kept conn := .alive st state frees isOpen registered sending part
      by_cases failed : event.failed = true
      · rw [if_pos failed]
        exact .inr handling.close
      rw [if_neg failed]
      by_cases readable : event.epollin = true
      · rw [if_pos readable]
        cases read : readLoop event.reads with
        | error stop =>
            cases readLoop_error read
            exact .inl rfl
        | ok closed =>
            cases closed with
            | true => exact .inr handling.close
            | false =>
                have restarts : event.restarts := ⟨Bool.eq_false_iff.mpr failed, readable, read⟩
                obtain ⟨next, prepared, ready⟩ := handling.prepare (unbroken restarts st state)
                simp only [bind, Except.bind, Bool.false_eq_true, if_false, prepared]
                split_ifs with out
                · exact ready.flush _
                · exact .inr ⟨next, rfl, .alive _ ready.state ready.frees ready.isOpen ready.registered ready.sending
                    response_positive⟩
      · rw [if_neg readable]
        split_ifs with out
        · exact handling.flush _
        · exact .inr ⟨conn, rfl, stays⟩

theorem Kept.step (conn : Conn) (event : Event) (after : Conn) (kept : Kept conn) (unbroken : Unbroken conn event)
    (stepped : (EventLoop.handleEvent conn event).toOption = some after) : Kept after := by
  rcases kept.handleEvent unbroken with absent | ⟨next, handled, keptNext⟩
  · rw [absent] at stepped
    cases stepped
  · rw [handled] at stepped
    cases stepped
    exact keptNext

/-! ### Memory that is gone -/

theorem closeConn_safe (alive : conn.state ≠ none) : closeConn conn ≠ .error .freed := by
  obtain ⟨st, state⟩ := Option.ne_none_iff_exists'.mp alive
  simp [closeConn, state]

theorem writeLoop_safe (results : List WriteResult) (alive : conn.state ≠ none) :
    writeLoop conn results ≠ .error .freed ∧
      ∀ failed after, writeLoop conn results = .ok (failed, after) → after.state ≠ none := by
  induction results generalizing conn with
  | nil =>
      obtain ⟨st, state⟩ := Option.ne_none_iff_exists'.mp alive
      simp only [writeLoop, state]
      split_ifs with more <;> simp_all
  | cons result rest ih =>
      obtain ⟨st, state⟩ := Option.ne_none_iff_exists'.mp alive
      rw [writeLoop]
      simp only [state]
      split_ifs with more
      · cases result with
        | again => simp_all
        | error => simp_all
        | count n =>
            simp only
            split_ifs with fits
            · exact ih (by simp)
            · simp
      · simp_all

theorem flush_safe (results : List WriteResult) (alive : conn.state ≠ none) : flush conn results ≠ .error .freed := by
  obtain ⟨safe, kept⟩ := writeLoop_safe results alive
  rw [flush]
  cases written : writeLoop conn results with
  | error stop =>
      intro used
      cases used
      exact safe written
  | ok result =>
      obtain ⟨failed, after⟩ := result
      have still := kept failed after written
      obtain ⟨st, state⟩ := Option.ne_none_iff_exists'.mp still
      simp only [bind, Except.bind, state]
      split_ifs with failure whole
      · exact closeConn_safe still
      · exact closeConn_safe still
      · intro used
        cases used

/-- A connection that events are delivered for has its memory, whatever the events are. -/
theorem handleEvent_safe (event : Event) (alive : conn.registered = true → conn.state ≠ none) :
    handleEvent conn event ≠ .error .freed := by
  rw [handleEvent]
  by_cases registered : conn.registered = true
  · have state := alive registered
    rw [if_pos registered]
    by_cases failed : event.failed = true
    · rw [if_pos failed]
      exact closeConn_safe state
    rw [if_neg failed]
    by_cases readable : event.epollin = true
    · rw [if_pos readable]
      cases read : readLoop event.reads with
      | error stop =>
          cases readLoop_error read
          intro used
          cases used
      | ok closed =>
          cases closed with
          | true => exact closeConn_safe state
          | false =>
              obtain ⟨st, found⟩ := Option.ne_none_iff_exists'.mp state
              simp only [bind, Except.bind, Bool.false_eq_true, if_false, prepare, found]
              split_ifs with out
              · exact flush_safe _ (by simp)
              · intro used
                cases used
    · rw [if_neg readable]
      split_ifs with out
      · exact flush_safe _ state
      · intro used
        cases used
  · rw [if_neg registered]
    intro used
    cases used

/-! ### Whole runs -/

/-- A connection gets a part of the response and is closed with the whole of it; its
memory is freed with the descriptor and not used again. -/
structure Intact (conn : Conn) : Prop where
  part : conn.sent <+: response
  whole : conn.sent = response → conn.isOpen = false ∧ conn.registered = false
  once : conn.frees = if conn.isOpen then 0 else 1
  memory : conn.state = none ↔ conn.isOpen = false
  safe : ∀ event, handleEvent conn event ≠ .error .freed

theorem Kept.intact (kept : Kept conn) : Intact conn := by
  cases kept with
  | alive st state frees isOpen registered sending part =>
      refine ⟨?_, ?_, by rw [frees, isOpen]; rfl, by simp [state, isOpen], fun event => handleEvent_safe event (by simp [state])⟩
      · rw [sending.sent]
        exact List.take_prefix ..
      · intro whole
        have length := congrArg List.length (sending.sent.symm.trans whole)
        rw [List.length_take] at length
        omega
  | closed state frees isOpen registered sent =>
      exact ⟨sent, fun _ => ⟨isOpen, registered⟩, by rw [frees, isOpen]; rfl, by simp [state, isOpen],
        fun event => handleEvent_safe event (by simp [registered])⟩

/-- The same of the reactor and its handler. -/
structure Client.Intact (client : Client) : Prop where
  part : client.sent <+: response
  whole : client.sent = response → client.isOpen = false ∧ client.registered = false
  once : client.destroyed = if client.isOpen then 0 else 1
  memory : client.handler = none ↔ client.isOpen = false
  safe : ∀ event, runEvent client event ≠ .error .freed

/-- What `Unbroken` says, of a handler. -/
def Client.Unbroken (client : Client) (event : Event) : Prop :=
  event.restarts → ∀ handler, client.handler = some handler → handler.writePos = 0

structure Client.Kept (client : Client) : Prop where
  conn : EventLoop.Kept client.asConn
  listed : client.inHandlers = client.registered

theorem Client.Kept.step (client : Client) (event : Event) (after : Client) (kept : client.Kept)
    (unbroken : client.Unbroken event) (stepped : (runEvent client event).toOption = some after) : after.Kept := by
  have same := runEvent_conn kept.listed event
  have calm : EventLoop.Unbroken client.asConn event := by
    intro restarts st state
    obtain ⟨handler, found, rfl⟩ := Option.map_eq_some_iff.mp state
    exact unbroken restarts handler found
  cases handled : runEvent client event with
  | error stop =>
      rw [handled] at stepped
      cases stepped
  | ok next =>
      rw [handled] at stepped same
      cases stepped
      refine ⟨kept.conn.step _ event _ calm ?_, runEvent_listed kept.listed handled⟩
      rw [← same]
      rfl

theorem Client.Kept.intact (kept : client.Kept) : client.Intact := by
  obtain ⟨part, whole, once, memory, safe⟩ := kept.conn.intact
  refine ⟨part, whole, once, Option.map_eq_none_iff.symm.trans memory, fun event used => safe event ?_⟩
  rw [← runEvent_conn kept.listed event, used]
  rfl

/-- As long as no event starts the response again after a part of it was written, each
connection is intact in every state that it reaches. -/
theorem responses_intact (events : List Event) (conn : Conn) (client : Client)
    (completed : run (fun conn event => (handleEvent conn event).toOption) Conn.start events = some conn)
    (meets : Meets (fun conn event => (handleEvent conn event).toOption) Unbroken Conn.start events)
    (reacted : run (fun client event => (runEvent client event).toOption) Client.start events = some client)
    (meetsClient : Meets (fun client event => (runEvent client event).toOption) Client.Unbroken Client.start events) :
    Intact conn ∧ client.Intact := by
  have kept := run_invariant_meeting Kept Kept.step start_kept meets completed
  have initial : Client.start.Kept := ⟨start_kept, rfl⟩
  have keptClient := run_invariant_meeting Client.Kept Client.Kept.step initial meetsClient reacted
  exact ⟨kept.intact, keptClient.intact⟩

/-- A request and a socket that takes ten bytes, then the rest. -/
def inTwoParts : List Event :=
  [{ epollrdhup := false, epollhup := false, epollerr := false, epollin := true, epollout := true
     reads := [.count 40, .again], writes := [.count 10, .again] },
   { epollrdhup := false, epollhup := false, epollerr := false, epollin := false, epollout := true
     reads := [], writes := [.count 87] }]

/-- The same, with a byte that arrives in between. -/
def restarted : List Event :=
  [{ epollrdhup := false, epollhup := false, epollerr := false, epollin := true, epollout := true
     reads := [.count 40, .again], writes := [.count 10, .again] },
   { epollrdhup := false, epollhup := false, epollerr := false, epollin := true, epollout := true
     reads := [.count 1, .again], writes := [.count 97] }]

theorem responses_intact_in_two_parts :
    ∃ conn client, run (fun conn event => (handleEvent conn event).toOption) Conn.start inTwoParts = some conn ∧
      run (fun client event => (runEvent client event).toOption) Client.start inTwoParts = some client ∧
      conn.sent = response ∧ Intact conn ∧ client.Intact := by
  let conn : Conn := { state := none, frees := 1, isOpen := false, registered := false, sent := response }
  let client : Client :=
    { handler := none, destroyed := 1, isOpen := false, registered := false, inHandlers := false, sent := response }
  have completed : run (fun conn event => (handleEvent conn event).toOption) Conn.start inTwoParts = some conn := by
    decide +kernel
  have reacted : run (fun client event => (runEvent client event).toOption) Client.start inTwoParts = some client := by
    decide +kernel
  have first : ∀ st, Conn.start.state = some st → st.writePos = 0 := by
    rintro st ⟨⟩
    rfl
  have firstHandler : ∀ handler, Client.start.handler = some handler → handler.writePos = 0 := by
    rintro handler ⟨⟩
    rfl
  have meets : Meets (fun conn event => (handleEvent conn event).toOption) Unbroken Conn.start inTwoParts :=
    ⟨fun _ => first, fun next _ => ⟨fun restarts => absurd restarts.2.1 (by decide), fun _ _ => trivial⟩⟩
  have meetsClient : Meets (fun client event => (runEvent client event).toOption) Client.Unbroken Client.start
      inTwoParts :=
    ⟨fun _ => firstHandler, fun next _ => ⟨fun restarts => absurd restarts.2.1 (by decide), fun _ _ => trivial⟩⟩
  exact ⟨conn, client, completed, reacted, rfl,
    responses_intact inTwoParts conn client completed meets reacted meetsClient⟩

/-- Ten bytes of the response are sent, and then all of it. -/
theorem responses_restarted :
    (∃ conn, run (fun conn event => (handleEvent conn event).toOption) Conn.start restarted = some conn ∧
      ¬ conn.sent <+: response) ∧
    ∃ client, run (fun client event => (runEvent client event).toOption) Client.start restarted = some client ∧
      ¬ client.sent <+: response := by
  let sent := response.take 10 ++ response
  have longer : ¬ sent <+: response := by decide +kernel
  have completed : run (fun conn event => (handleEvent conn event).toOption) Conn.start restarted =
      some { state := none, frees := 1, isOpen := false, registered := false, sent } := by decide +kernel
  have reacted : run (fun client event => (runEvent client event).toOption) Client.start restarted =
      some { handler := none, destroyed := 1, isOpen := false, registered := false, inHandlers := false, sent } := by
    decide +kernel
  exact ⟨⟨_, completed, longer⟩, ⟨_, reacted, longer⟩⟩

end HundredDays.EventLoop
