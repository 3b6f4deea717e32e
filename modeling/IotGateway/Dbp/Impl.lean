import IotGateway.Lib.Table

/-!
This module contains the connection table of the DBP server with the threads that use it: the one that
accepts connections, a handler for each of them, and those that send data to all clients.
-/

namespace Dbp

open Table

def MAX_NUM_OF_CONN : Nat := 100

/--
`connection_t`
-/
structure Connection where
  connected : Bool := false
  conn_number : Nat := 0
  sock_fd : Fin MAX_NUM_OF_CONN → Int := fun _ => 0

/--
Where the thread that accepts connections stands. Each section under the mutex is one step.
-/
inductive Acceptor where
  -- In `accept`
  | accept
  -- In `dbp_msg_receiver`, before `dbp_get_index_number`, `dbp_add_socket` and `pthread_create`
  | getIndex (socket_fd : Int)
  | add (socket_fd : Int) (index : Fin MAX_NUM_OF_CONN)
  | create (socket_fd : Int) (index : Fin MAX_NUM_OF_CONN)
  -- In `usleep`
  | sleep (index : Fin MAX_NUM_OF_CONN)
  deriving DecidableEq

/--
Where a `dbp_client_handler` stands.
-/
inductive HandlerPc where
  -- Before it reads its argument, and before `dbp_get_socket`
  | started
  | getSocket (index : Int)
  -- In the loop, and before `dbp_remove_socket`
  | recv (index socket_fd : Int)
  | remove (index : Int)
  | ended
  deriving DecidableEq

/--
`own` only remembers the descriptor of the connection that the handler has been started for.
-/
structure Handler where
  own : Int
  pc : HandlerPc
  deriving DecidableEq

/--
What `recv` returns, with what the parser makes of a message.
-/
inductive Received where
  | disconnected
  | error
  | close
  | message
  deriving DecidableEq

/--
`fds` are the descriptors that have been accepted and not closed, `index` is the variable of
`dbp_msg_receiver` that the handlers get a pointer to, and `beyond` is what is in memory before and
after the table. The first `numHandlers` handlers have been started. `checked` are the senders that
are
between their test of `connected` and the mutex.
-/
structure State where
  connection : Connection := {}
  fds : List Int := []
  acceptor : Acceptor := .accept
  index : Int
  beyond : Int → Int
  numHandlers : Nat := 0
  handlers : Nat → Option Handler := fun _ => none
  checked : Nat → Bool := fun _ => false

inductive Event where
  | accept (socket_fd : Int)
  -- Other functions use the memory of `index`
  | clobber (value : Int)
  | getIndex
  | add
  -- `created` is whether `pthread_create` succeeds
  | create (created : Bool)
  | wake
  | readIndex (t : Nat)
  | getSocket (t : Nat)
  | recv (t : Nat) (received : Received)
  | remove (t : Nat)
  | check (sender : Nat)
  | send (sender : Nat)
  deriving DecidableEq

/--
What has been sent by a `dbp_send_data_to_clients`, with the clients in the table then.
-/
structure Broadcast where
  clients : List Int
  sent : List Int
  deriving DecidableEq

def dbp_get_index_number (c : Connection) : Option (Fin MAX_NUM_OF_CONN) :=
  first (· == 0) c.sock_fd

def dbp_add_socket (sock_fd : Int) (index : Fin MAX_NUM_OF_CONN) (c : Connection) : Connection :=
  if c.conn_number ≤ MAX_NUM_OF_CONN then
    { connected := true
      conn_number := c.conn_number + 1
      sock_fd := Function.update c.sock_fd index sock_fd }
  else
    c

/--
What an index outside of the table overwrites is not modelled.
-/
def dbp_remove_socket (index : Int) (c : Connection) : Connection :=
  let sock_fd :=
    if h : 0 ≤ index ∧ index < MAX_NUM_OF_CONN then
      Function.update c.sock_fd ⟨index.toNat, by omega⟩ 0
    else
      c.sock_fd
  if 0 < c.conn_number then
    { connected := if c.conn_number - 1 ≤ 0 then false else c.connected
      conn_number := c.conn_number - 1
      sock_fd }
  else
    { c with sock_fd }

def dbp_get_socket (s : State) (index : Int) : Int :=
  if h : 0 ≤ index ∧ index < MAX_NUM_OF_CONN then
    s.connection.sock_fd ⟨index.toNat, by omega⟩
  else
    s.beyond index

def clients (c : Connection) : List Int :=
  ((List.finRange MAX_NUM_OF_CONN).map c.sock_fd).filter (· ≠ 0)

/--
The loop of `dbp_send_data_to_clients` from a slot on. `j` clients have been served.
-/
def sendLoop (conn_number : Nat) : List Int → Nat → List Int
  | [], _ => []
  | fd :: fds, j =>
    if fd ≠ 0 then
      if conn_number ≤ j + 1 then [fd] else fd :: sendLoop conn_number fds (j + 1)
    else
      sendLoop conn_number fds j

def dbp_send_data_to_clients (c : Connection) : List Int :=
  sendLoop c.conn_number ((List.finRange MAX_NUM_OF_CONN).map c.sock_fd) 0

def State.goto (s : State) (t : Nat) (own : Int) (pc : HandlerPc) : State :=
  { s with handlers := Function.update s.handlers t (some { own, pc }) }

/--
An event that is not possible does nothing. A descriptor is given to one connection at a time, and 0
is the standard input.
-/
def step (s : State) (e : Event) : State × List Broadcast :=
  match e with
  | .accept socket_fd =>
    if s.acceptor = .accept ∧ 0 < socket_fd ∧ socket_fd ∉ s.fds then
      ({ s with fds := socket_fd :: s.fds, acceptor := .getIndex socket_fd }, [])
    else
      (s, [])
  | .clobber value =>
    match s.acceptor with
    | .accept | .getIndex _ => ({ s with index := value }, [])
    | _ => (s, [])
  | .getIndex =>
    match s.acceptor with
    | .getIndex socket_fd =>
      match dbp_get_index_number s.connection with
      | some index => ({ s with acceptor := .add socket_fd index, index := (index : Nat) }, [])
      -- The descriptor is not closed
      | none => ({ s with acceptor := .accept, index := -1 }, [])
    | _ => (s, [])
  | .add =>
    match s.acceptor with
    | .add socket_fd index =>
      ({ s with
          connection := dbp_add_socket socket_fd index s.connection
          acceptor := .create socket_fd index }, [])
    | _ => (s, [])
  | .create created =>
    match s.acceptor with
    | .create socket_fd index =>
      if created then
        ({ s with
            acceptor := .sleep index
            numHandlers := s.numHandlers + 1
            handlers :=
              Function.update s.handlers s.numHandlers (some { own := socket_fd, pc := .started }) },
          [])
      else
        ({ s with acceptor := .accept }, [])
    | _ => (s, [])
  | .wake =>
    match s.acceptor with
    | .sleep _ => ({ s with acceptor := .accept }, [])
    | _ => (s, [])
  | .readIndex t =>
    match s.handlers t with
    | some { own, pc := .started } => (s.goto t own (.getSocket s.index), [])
    | _ => (s, [])
  | .getSocket t =>
    match s.handlers t with
    | some { own, pc := .getSocket index } =>
      (s.goto t own (.recv index (dbp_get_socket s index)), [])
    | _ => (s, [])
  | .recv t received =>
    match s.handlers t with
    | some { own, pc := .recv index socket_fd } =>
      match received with
      -- The descriptor is not closed
      | .disconnected | .error => (s.goto t own (.remove index), [])
      | .close =>
        ({ s with fds := s.fds.filter (· ≠ socket_fd) }.goto t own (.remove index), [])
      | .message => (s, [])
    | _ => (s, [])
  | .remove t =>
    match s.handlers t with
    | some { own, pc := .remove index } =>
      ({ s with connection := dbp_remove_socket index s.connection }.goto t own .ended, [])
    | _ => (s, [])
  | .check sender =>
    if s.connection.connected then
      ({ s with checked := Function.update s.checked sender true }, [])
    else
      (s, [{ clients := clients s.connection, sent := [] }])
  | .send sender =>
    if s.checked sender then
      ({ s with checked := Function.update s.checked sender false },
        [{ clients := clients s.connection, sent := dbp_send_data_to_clients s.connection }])
    else
      (s, [])

end Dbp
