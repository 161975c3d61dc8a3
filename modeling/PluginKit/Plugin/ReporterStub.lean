import PluginKit.Wire.Contracts

/-!
# A reporter with canned content

The stub reports the content it was made with, and sends every later update to those who watch
it. Each watch has a task that forwards updates to a queue of its own. Updates pass through a
buffer of bounded length, so a task that falls behind misses the oldest of them.
-/

namespace PluginKit

abbrev Contents := List Wire.Contracts.Reporter.reportContent.Value

/-- One watch: the start it was opened under, how many updates had been sent when its task
last looked, and what waits in its queue. It is `held` until its reader drops it, and
`forwarding` until its task ends. -/
structure Watch where
  id : String
  token : Nat
  cursor : Nat
  greeted : Bool := false
  held : Bool := true
  forwarding : Bool := true
  queue : List Contents := []

inductive WatchItem where
  | item (contents : Contents)
  | pending
  | ended

/-- Takes what a watch holds next for its reader. It ends once its task has and its queue is
empty. -/
def Watch.take (w : Watch) : Watch × WatchItem :=
  match w.queue with
  | contents :: rest => ({ w with queue := rest }, .item contents)
  | [] => (w, if w.forwarding then .pending else .ended)

/-- The stub: its content, whether it was started and under which token, how many tokens it
has given out, how many updates it has sent, the last of them, and its watches. -/
structure ReporterStub where
  content : Contents
  started : Bool := false
  token : Option Nat := none
  tokens : Nat := 0
  sent : Nat := 0
  buffer : List Contents := []
  watches : List Watch := []

namespace ReporterStub

def bufferSize : Nat := 16

/-- Starts the stub; nothing happens when it is started already. -/
def start (s : ReporterStub) : ReporterStub :=
  if s.started then s
  else { s with started := true, token := some s.tokens, tokens := s.tokens + 1 }

/-- Stops the stub, and with it every watch that was opened before. -/
def stop (s : ReporterStub) : ReporterStub :=
  { s with started := false, token := none }

def lastOf {α : Type} (n : Nat) (items : List α) : List α :=
  items.drop (items.length - n)

/-- How many tasks would get an update. -/
def receivers (s : ReporterStub) : Nat :=
  (s.watches.filter fun w => w.forwarding).length

/-- Sends new content, and answers how many tasks will get it. Without any it is not kept. -/
def update (s : ReporterStub) (contents : Contents) : ReporterStub × Nat :=
  if s.receivers = 0 then (s, 0)
  else
    ({ s with sent := s.sent + 1, buffer := lastOf bufferSize (s.buffer ++ [contents]) },
      s.receivers)

def updateAll (s : ReporterStub) : List Contents → ReporterStub × List Nat
  | [] => (s, [])
  | contents :: rest =>
      let (s', count) := s.update contents
      let (s'', counts) := s'.updateAll rest
      (s'', count :: counts)

def release (id : String) (w : Watch) : Watch :=
  if w.id = id then { w with held := false } else w

/-- Opens a watch, in place of an older one with its name. A stub that is not started has
none. -/
def watch? (s : ReporterStub) (id : String) : Option ReporterStub :=
  s.token.map fun token =>
    let watch := { id := id, token := token, cursor := s.sent }
    { s with watches := s.watches.map (release id) ++ [watch] }

def isHeld (id : String) (w : Watch) : Bool := w.held && w.id == id

def drop (s : ReporterStub) (id : String) : ReporterStub × Bool :=
  ({ s with watches := s.watches.map (release id) }, s.watches.any (isHeld id))

/-- A watch after its task has run until it has nothing to do: the content the stub was made
with goes first, and then the updates it has not seen, as far as the buffer has them. -/
def advance (s : ReporterStub) (w : Watch) : Watch :=
  if !w.forwarding then w
  else if !w.held then { w with forwarding := false }
  else
    let greeting := if w.greeted then [] else [s.content]
    if s.token ≠ some w.token then
      { w with greeted := true, forwarding := false, queue := w.queue ++ greeting }
    else
      { w with
        greeted := true
        cursor := s.sent
        queue := w.queue ++ greeting ++ lastOf (s.sent - w.cursor) s.buffer }

/-- The stub after all tasks have run until they have nothing to do. -/
def settle (s : ReporterStub) : ReporterStub :=
  { s with
    watches := (s.watches.map s.advance).filter fun w => w.held || w.forwarding }

/-- Takes the next item of the first of the watches that is held under a name. -/
def nextOf (id : String) : List Watch → List Watch × Option WatchItem
  | [] => ([], none)
  | w :: rest =>
      if isHeld id w then
        let (w', item) := w.take
        (w' :: rest, some item)
      else
        let (rest', item) := nextOf id rest
        (w :: rest', item)

/-- Takes the next item of a watch, if there is such a watch. -/
def next (s : ReporterStub) (id : String) : ReporterStub × Option WatchItem :=
  let (watches, item) := nextOf id s.watches
  ({ s with watches := watches }, item)

end ReporterStub

end PluginKit
