import Mathlib.Data.List.Infix

namespace HundredDays.EventLoop

/-! One connection of the event loop, from the registration of its descriptor on.

An event comes with what the system calls made for it return, one after another.
-/

/-- `BUF_SIZE` -/
def bufSize : Nat := 1024

def resp : String :=
  "HTTP/1.1 200 OK\r\nContent-Type: text/plain\r\nContent-Length: 13\r\nConnection: close\r\n\r\nHello World!\n"

/-- The bytes of `resp`, which are all ASCII. -/
def response : List UInt8 := resp.toList.map fun char => UInt8.ofNat char.toNat

example : response.length = 97 ∧ response.length ≤ bufSize := by decide

/-- What a `read` returns; `again` is `EAGAIN` or `EWOULDBLOCK`. -/
inductive ReadResult where
  | count (n : Nat)
  | again
  | error
deriving DecidableEq, Repr

inductive WriteResult where
  | count (n : Nat)
  | again
  | error
deriving DecidableEq, Repr

structure Event where
  epollrdhup : Bool
  epollhup : Bool
  epollerr : Bool
  epollin : Bool
  epollout : Bool
  reads : List ReadResult
  writes : List WriteResult
deriving DecidableEq, Repr

/-- `revents & (EPOLLRDHUP | EPOLLHUP | EPOLLERR)` -/
def Event.failed (event : Event) : Bool := event.epollrdhup || event.epollhup || event.epollerr

/-- Why an event is not handled to its end. -/
inductive Stop where
  /-- The memory of the connection is used after it was freed. -/
  | freed
  /-- There is no such event, or no such result of a call. -/
  | absent
deriving DecidableEq, Repr

/-- The loop around `read`; whether the connection is to be closed. -/
def readLoop : List ReadResult → Except Stop Bool
  | [] => .error .absent
  | .again :: _ => .ok false
  | .error :: _ => .ok true
  | .count n :: rest => if n = 0 then .ok true else readLoop rest

/-! ### The C loop -/

/-- `struct conn_state`; of `write_buf` the bytes copied into it. -/
structure ConnState where
  writeBuf : List UInt8
  writeLen : Nat
  writePos : Nat
deriving DecidableEq, Repr

/-- The memory of a connection, which is gone once it is freed, with its descriptor and
the bytes that were written to it. -/
structure Conn where
  state : Option ConnState
  frees : Nat
  isOpen : Bool
  registered : Bool
  sent : List UInt8
deriving DecidableEq, Repr

/-- After `calloc` and `EPOLL_CTL_ADD`. -/
def Conn.start : Conn :=
  { state := some { writeBuf := [], writeLen := 0, writePos := 0 }, frees := 0, isOpen := true, registered := true
    sent := [] }

def closeConn (conn : Conn) : Except Stop Conn :=
  match conn.state with
  | none => .error .freed
  | some _ => .ok { conn with state := none, frees := conn.frees + 1, isOpen := false, registered := false }

/-- What follows the loop around `read`. -/
def prepare (conn : Conn) : Except Stop Conn :=
  match conn.state with
  | none => .error .freed
  | some _ =>
      .ok { conn with state := some { writeBuf := response, writeLen := response.length, writePos := 0 } }

/-- The loop around `write`; whether it failed. -/
def writeLoop (conn : Conn) (results : List WriteResult) : Except Stop (Bool × Conn) :=
  match conn.state with
  | none => .error .freed
  | some st =>
      if st.writePos < st.writeLen then
        match results with
        | [] => .error .absent
        | .again :: _ => .ok (false, conn)
        | .error :: _ => .ok (true, conn)
        | .count n :: rest =>
            if n ≤ st.writeLen - st.writePos then
              writeLoop { conn with
                state := some { st with writePos := st.writePos + n }
                sent := conn.sent ++ (st.writeBuf.drop st.writePos).take n } rest
            else .error .absent
      else .ok (false, conn)

/-- The branch for `EPOLLOUT`. -/
def flush (conn : Conn) (results : List WriteResult) : Except Stop Conn := do
  let (error, conn) ← writeLoop conn results
  match conn.state with
  | none => .error .freed
  | some st => if error then closeConn conn else if st.writePos = st.writeLen then closeConn conn else return conn

/-- The body of the loop in `main` for the event of a connection. -/
def handleEvent (conn : Conn) (event : Event) : Except Stop Conn :=
  if conn.registered then
    if event.failed then closeConn conn
    else if event.epollin then do
      let closed ← readLoop event.reads
      if closed then closeConn conn
      else
        let conn ← prepare conn
        if event.epollout then flush conn event.writes else return conn
    else if event.epollout then flush conn event.writes
    else return conn
  else .error .absent

/-! ### The C++ reactor -/

structure ClientHandler where
  writeBuf : List UInt8
  writePos : Nat
deriving DecidableEq, Repr

/-- The handler of a connection, which is gone once it is destroyed, and whether
`handlers_` has it. -/
structure Client where
  handler : Option ClientHandler
  destroyed : Nat
  isOpen : Bool
  registered : Bool
  inHandlers : Bool
  sent : List UInt8
deriving DecidableEq, Repr

/-- After `register_handler`. -/
def Client.start : Client :=
  { handler := some { writeBuf := [], writePos := 0 }, destroyed := 0, isOpen := true, registered := true
    inHandlers := true, sent := [] }

/-- The descriptor is a member of the handler. -/
def removeHandler (client : Client) : Except Stop Client :=
  match client.handler with
  | none => .error .freed
  | some _ => .ok { client with registered := false, inHandlers := false }

/-- `ClientHandler::handle_error` -/
def handleError (client : Client) : Except Stop Client := removeHandler client

/-- `ClientHandler::handle_read` -/
def handleRead (client : Client) (results : List ReadResult) : Except Stop Client := do
  let closed ← readLoop results
  if closed then handleError client
  else
    match client.handler with
    | none => .error .freed
    | some _ => .ok { client with handler := some { writeBuf := response, writePos := 0 } }

/-- The loop of `ClientHandler::handle_write`; whether it failed. -/
def writeFrom (client : Client) (results : List WriteResult) : Except Stop (Bool × Client) :=
  match client.handler with
  | none => .error .freed
  | some handler =>
      if handler.writePos < handler.writeBuf.length then
        match results with
        | [] => .error .absent
        | .again :: _ => .ok (false, client)
        | .error :: _ => .ok (true, client)
        | .count n :: rest =>
            if n ≤ handler.writeBuf.length - handler.writePos then
              writeFrom { client with
                handler := some { handler with writePos := handler.writePos + n }
                sent := client.sent ++ (handler.writeBuf.drop handler.writePos).take n } rest
            else .error .absent
      else .ok (false, client)

/-- `ClientHandler::handle_write` -/
def handleWrite (client : Client) (results : List WriteResult) : Except Stop Client := do
  let (error, client) ← writeFrom client results
  if error then handleError client
  else
    match client.handler with
    | none => .error .freed
    | some handler => if handler.writePos = handler.writeBuf.length then removeHandler client else return client

/-- The end of a round, where `handler` goes out of scope: with the last reference the
handler is destroyed. -/
def release (client : Client) : Except Stop Client :=
  if client.inHandlers then .ok client
  else
    match client.handler with
    | none => .error .freed
    | some _ => .ok { client with handler := none, destroyed := client.destroyed + 1, isOpen := false }

/-- A round of the loop in `Reactor::run`. -/
def runEvent (client : Client) (event : Event) : Except Stop Client :=
  if client.registered then
    if !client.inHandlers then .ok client
    else do
      let client ←
        if event.failed then handleError client
        else do
          let client ← if event.epollin then handleRead client event.reads else pure client
          if event.epollout && client.inHandlers then handleWrite client event.writes else pure client
      release client
  else .error .absent

end HundredDays.EventLoop
