import Sendplane.Data.System
import Sendplane.Data.Threads
import Sendplane.Store.Records

namespace Sendplane.Sender.Pool

open Data Data.Threads Store

structure PoolConfig where
  maxMsgsPerConn : Int := 0
  idleTimeout : Duration := 0

def newPool (cfg : PoolConfig) : PoolConfig where
  maxMsgsPerConn := if cfg.maxMsgsPerConn ≤ 0 then 100 else cfg.maxMsgsPerConn
  idleTimeout := if cfg.idleTimeout ≤ 0 then 30000 * millisecond else cfg.idleTimeout

/-- A reference to a connection, with the two fields that never change. -/
structure Conn where
  id : Nat
  group : Text
  version : Int
deriving DecidableEq

structure Group where
  limit : Nat := 0
  held : Nat := 0
  version : Int := 0
  /-- The connection that came back last is first. -/
  idle : List Conn := []

/-- Where a call is, and what it carries. -/
inductive Call where
  /-- Get has its group and waits for a token. -/
  | waiting (key : Text) (version : Int)
  | acquired (key : Text) (version : Int)
  | dialing (key : Text) (version : Int)
  /-- Get has returned. -/
  | holding (c : Conn)
  /-- Put has reset the connection. -/
  | resetDone (c : Conn)
  /-- Put has found the pool open. -/
  | keeping (c : Conn)
  /-- Put is about to close. -/
  | dropping (c : Conn)
  | releasing (key : Text)
  /-- CloseTransport has its group. -/
  | clearing (key : Text)
  /-- CloseTransport closes what was idle. -/
  | closing (idle : List Conn)
deriving DecidableEq

namespace Call

def checkedOut : Call → Option Conn
  | .holding c | .resetDone c | .keeping c | .dropping c => some c
  | _ => none

/-- The group whose token the call holds. -/
def token : Call → Option Text
  | .acquired key _ | .dialing key _ | .releasing key => some key
  | .holding c | .resetDone c | .keeping c | .dropping c => some c.group
  | _ => none

/-- The group in which the call dials or has a connection checked out. -/
def busy : Call → Option Text
  | .dialing key _ => some key
  | .holding c | .resetDone c | .keeping c | .dropping c => some c.group
  | _ => none

/-- What CloseTransport has yet to close. -/
def leftover : Call → List Conn
  | .closing idle => idle
  | _ => []

def conns : Call → List Conn
  | .holding c | .resetDone c | .keeping c | .dropping c => [c]
  | .closing idle => idle
  | _ => []

end Call

inductive Shutdown where
  | running
  | draining (groups : List Text) (idle : List Conn)
  | returned

def Shutdown.conns : Shutdown → List Conn
  | .draining _ idle => idle
  | .running | .returned => []

def Shutdown.remaining : Shutdown → List Text
  | .draining groups _ => groups
  | .running | .returned => []

structure Checkout where
  c : Conn
  /-- The version of the row that was asked for. -/
  version : Int
  sent : Nat
deriving DecidableEq

structure State where
  groups : Table Text Group := ∅
  closed : Bool := false
  calls : List Call := []
  shutdown : Shutdown := .running
  opened : List Conn := []
  live : List Conn := []
  sent : Conn → Nat := fun _ => 0
  idleSince : Conn → Time := fun _ => 0
  gets : List Checkout := []

namespace State

variable (s : State)

def group (key : Text) : Group :=
  s.groups[key]?.getD {}

def setGroup (key : Text) (g : Group) : State :=
  { s with groups := s.groups.insert key g }

def start (call : Call) : State :=
  { s with calls := call :: s.calls }

def become (before : Call) (after : List Call) : State :=
  { s with calls := replace s.calls before after }

def close (conns : List Conn) : State :=
  { s with live := s.live.diff conns }

end State

inductive Step where
  | get (t : Transport)
  | acquire (key : Text) (version : Int)
  | cancel (key : Text) (version : Int)
  | popIdle (key : Text) (version : Int) (now : Time)
  /-- A dial that succeeds yields a new connection. -/
  | dial (key : Text) (version : Int) (outcome : Option Nat)
  | send (c : Conn)
  | put (c : Conn) (reusable resets : Bool) (now : Time)
  | readClosed (c : Conn)
  | putBack (c : Conn)
  | closeConn (c : Conn)
  | release (key : Text)
  | closeTransport (id : Text)
  | detach (key : Text)
  | closeIdle (c : Conn) (rest : List Conn)
  | transportClosed
  | close
  | drain (key : Text)
  | closeDrained
  | closeReturns

def newGroup (t : Transport) : Group where
  limit := if t.maxConns ≤ 0 then 4 else t.maxConns.toNat
  version := t.version

def groupFor (s : State) (t : Transport) : State :=
  match s.groups[t.id]? with
  | some _ => s
  | none => s.setGroup t.id (newGroup t)

def expired (cfg : PoolConfig) (s : State) (now : Time) (c : Conn) : Bool :=
  cfg.idleTimeout < now - s.idleSince c || cfg.maxMsgsPerConn ≤ s.sent c

def reuse (cfg : PoolConfig) (s : State) (now : Time) : List Conn → Option Conn × List Conn × List Conn
  | [] => (none, [], [])
  | c :: rest =>
      if expired cfg s now c then
        let (found, old, left) := reuse cfg s now rest
        (found, c :: old, left)
      else (some c, [], rest)

def popIdle (cfg : PoolConfig) (s : State) (key : Text) (version : Int) (now : Time) : State :=
  let g := s.group key
  if version ≠ g.version then
    ((s.setGroup key { g with idle := [], version }).close g.idle).become (.acquired key version)
      [.dialing key version]
  else
    let (found, old, left) := reuse cfg s now g.idle
    let popped := (s.setGroup key { g with idle := left }).close old
    match found with
    | some c => { popped.become (.acquired key version) [.holding c] with
        gets := { c, version, sent := s.sent c } :: s.gets }
    | none => popped.become (.acquired key version) [.dialing key version]

def dialed (s : State) (key : Text) (version : Int) (id : Nat) : State :=
  let c : Conn := { id, group := key, version }
  { s.become (.dialing key version) [.holding c] with
    opened := c :: s.opened
    live := c :: s.live
    sent := Function.update s.sent c 0
    idleSince := Function.update s.idleSince c 0
    gets := { c, version, sent := 0 } :: s.gets }

def put (cfg : PoolConfig) (s : State) (c : Conn) (reusable resets : Bool) (now : Time) : State :=
  if !reusable || cfg.maxMsgsPerConn ≤ s.sent c then s.become (.holding c) [.dropping c]
  else if !resets then s.become (.holding c) [.dropping c]
  else { s.become (.holding c) [.resetDone c] with idleSince := Function.update s.idleSince c now }

def putBack (s : State) (c : Conn) : State :=
  let g := s.group c.group
  if c.version ≠ g.version then s.become (.keeping c) [.dropping c]
  else (s.setGroup c.group { g with idle := c :: g.idle }).become (.keeping c) [.releasing c.group]

def closeTransport (s : State) (id : Text) : State :=
  match s.groups[id]? with
  | none => s
  | some _ => s.start (.clearing id)

/-- The step that takes a call out of its phase. -/
def State.stepFrom (s : State) (call : Call) (next : State) : Option State :=
  if call ∈ s.calls then some next else none

/-- The steps of any number of calls; `cfg` has its defaults. -/
def pool (cfg : PoolConfig) : System State Step where
  step
    | s, .get t =>
        if s.closed then some s
        else some ((groupFor s t).start (.waiting t.id t.version))
    | s, .acquire key version =>
        let g := s.group key
        if g.held < g.limit then
          s.stepFrom (.waiting key version) ((s.setGroup key { g with held := g.held + 1 }).become
            (.waiting key version) [.acquired key version])
        else none
    | s, .cancel key version => s.stepFrom (.waiting key version) (s.become (.waiting key version) [])
    | s, .popIdle key version now => s.stepFrom (.acquired key version) (popIdle cfg s key version now)
    | s, .dial key version none =>
        s.stepFrom (.dialing key version) (s.become (.dialing key version) [.releasing key])
    | s, .dial key version (some id) =>
        if { id, group := key, version } ∈ s.opened then none
        else s.stepFrom (.dialing key version) (dialed s key version id)
    | s, .send c => s.stepFrom (.holding c) { s with sent := Function.update s.sent c (s.sent c + 1) }
    | s, .put c reusable resets now => s.stepFrom (.holding c) (put cfg s c reusable resets now)
    | s, .readClosed c =>
        s.stepFrom (.resetDone c) (s.become (.resetDone c) [if s.closed then .dropping c else .keeping c])
    | s, .putBack c => s.stepFrom (.keeping c) (putBack s c)
    | s, .closeConn c =>
        s.stepFrom (.dropping c) ((s.close [c]).become (.dropping c) [.releasing c.group])
    | s, .release key =>
        let g := s.group key
        s.stepFrom (.releasing key) ((s.setGroup key { g with held := g.held - 1 }).become (.releasing key) [])
    | s, .closeTransport id => some (closeTransport s id)
    | s, .detach key =>
        let g := s.group key
        s.stepFrom (.clearing key) ((s.setGroup key { g with idle := [] }).become (.clearing key) [.closing g.idle])
    | s, .closeIdle c rest =>
        s.stepFrom (.closing (c :: rest)) ((s.close [c]).become (.closing (c :: rest)) [.closing rest])
    | s, .transportClosed => s.stepFrom (.closing []) (s.become (.closing []) [])
    | s, .close =>
        match s.shutdown with
        | .running => some { s with
            closed := true
            shutdown := .draining (Table.keysWhere s.groups fun _ _ => true) [] }
        | _ => none
    | s, .drain key =>
        match s.shutdown with
        | .draining groups [] =>
            let g := s.group key
            if key ∈ groups then
              some { s.setGroup key { g with idle := [] } with shutdown := .draining (groups.erase key) g.idle }
            else none
        | _ => none
    | s, .closeDrained =>
        match s.shutdown with
        | .draining groups (c :: rest) => some { s.close [c] with shutdown := .draining groups rest }
        | _ => none
    | s, .closeReturns =>
        match s.shutdown with
        | .draining [] [] => some { s with shutdown := .returned }
        | _ => none

end Sendplane.Sender.Pool
