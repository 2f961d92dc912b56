import Kassiber.Lib.Runs

/-!
Calls on one daemon process that has announced itself.
-/

namespace Kassiber.Supervisor
open Function (update)

inductive IdValue where
  | text (id : String)
  | other

structure Response where
  kind : Option String := none
  requestId : Option IdValue := none
  event : Bool := false
  body : String := ""

def Response.requestKey (r : Response) : Option String :=
  match r.requestId with
  | some (.text id) => some id
  | _ => none

inductive Line where
  | json (response : Response)
  | unreadable

inductive Handling where
  | answered
  | refused (code : String)
  | route (requestId : String)

def isWhiteSpace (c : Char) : Bool :=
  let n := c.toNat
  (9 ≤ n && n ≤ 13) || n == 32 || n == 0x85 || n == 0xa0 || n == 0x1680 || (0x2000 ≤ n && n ≤ 0x200a) || n == 0x2028 ||
    n == 0x2029 || n == 0x202f || n == 0x205f || n == 0x3000

def secretStoreControlRequestKind : String := "supervisor.ai_secret_store.request"

/-- What the reader does with a record. `bridged` tells whether the answer to a control request could be written. -/
def handling (bridged : Bool) (r : Response) : Handling :=
  if r.kind = some secretStoreControlRequestKind then
    if bridged = true then .answered else .refused "secret_store_bridge_failed"
  else if r.event = true then
    -- An event has a kind and names no request.
    if r.requestId.isSome = true then .refused "daemon_protocol_error"
    else if (r.kind.getD "").toList.all isWhiteSpace = true then .refused "daemon_protocol_error"
    else .answered
  else match r.requestKey with
    | none => .refused "daemon_protocol_error"
    | some id => .route id

structure Call where
  requestId : String
  kind : String
  streaming : Bool := false

abbrev Outcome := Except String Response

/-- How far a call is. `listed` tells whether it still has to unregister once it has killed the daemon. -/
inductive Caller where
  | idle
  | checked
  | registered
  | unwritten
  | waiting
  | breaking (outcome : Outcome) (listed : Bool)
  | killing (outcome : Outcome) (listed : Bool)
  | leaving (outcome : Outcome)
  | returned (outcome : Outcome)

def Call.take (call : Call) (r : Response) : Caller :=
  let responseKind := r.kind.getD ""
  if r.requestKey ≠ some call.requestId then .breaking (.error "daemon_request_id_mismatch") true
  else if responseKind = call.kind ∨ responseKind = "error" ∨ responseKind = "auth_required" then .leaving (.ok r)
  else if call.streaming = true then .waiting
  else if responseKind = "progress" then .waiting
  else .breaking (.error "daemon_protocol_error") true

structure Delivery where
  position : Nat
  response : Response

abbrev Message := Except String Delivery

inductive Reader where
  | reading
  | sending (record : Delivery) (requestId : String) (caller : Nat)
  | cleaning (requestId : String)
  | failing (code : String)
  | draining (code : String) (senders : List Nat)
  | stopped

def Reader.drained : Reader → Prop
  | draining _ _ | stopped => True
  | reading | sending _ _ _ | cleaning _ | failing _ => False

abbrev Pending := List (String × Nat)

namespace Pending

def get (pending : Pending) (requestId : String) : Option Nat :=
  (pending.find? fun entry => entry.1 = requestId).map Prod.snd

def remove (pending : Pending) (requestId : String) : Pending := pending.filter fun entry => entry.1 ≠ requestId

end Pending

/-- The state that all threads see. What a caller has received, and how much of the output is read, is history. -/
structure Process where
  broken : Bool := false
  pending : Pending := []
  callers : Nat → Caller := fun _ => .idle
  queues : Nat → List Message := fun _ => []
  received : Nat → List Delivery := fun _ => []
  reader : Reader := .reading
  output : List Line := []
  read : Nat := 0
  running : Bool := true
  closed : Bool := false

namespace Process

def move (s : Process) (c : Nat) (phase : Caller) : Process := { s with callers := update s.callers c phase }

def Listens (s : Process) (c : Nat) : Prop := ∀ outcome, s.callers c ≠ .returned outcome

def post (s : Process) (c : Nat) (message : Message) : Process :=
  { s with queues := update s.queues c (s.queues c ++ [message]) }

def fail (s : Process) (code : String) : Process := { s with broken := true, reader := .failing code }

/-- A sender of the caller is held, by the registry or by the reader. -/
def Held (s : Process) (c : Nat) : Prop :=
  c ∈ s.pending.map Prod.snd ∨ (∃ record id, s.reader = .sending record id c) ∨
    ∃ code senders, s.reader = .draining code senders ∧ c ∈ senders

def readLine (s : Process) (bridged : Bool) (line : Line) : Process :=
  let next := { s with read := s.read + 1 }
  match line with
  | .unreadable => next.fail "daemon_protocol_error"
  | .json r =>
    match handling bridged r with
    | .answered => next
    | .refused code => next.fail code
    | .route id =>
      match s.pending.get id with
      -- A late record of a caller that has left.
      | none => next
      | some c => { next with reader := .sending { position := s.read, response := r } id c }

end Process

inductive Action where
  | readLine (bridged : Bool)
  | send
  | clean
  | endOfStream
  | readError
  | drain
  | tell
  | stop
  | check (caller : Nat)
  | insert (caller : Nat)
  | write (caller : Nat)
  | unregister (caller : Nat)
  | receive (caller : Nat)
  | disconnect (caller : Nat)
  | markBroken (caller : Nat)
  | kill (caller : Nat)
  | leave (caller : Nat)
  | daemonLine (line : Line)
  | closeStdout
  | exit

inductive ReaderStep (s : Process) : Action → Process → Prop where
  | line {line : Line} (bridged : Bool) (reading : s.reader = .reading) (next : s.output[s.read]? = some line) :
    ReaderStep s (.readLine bridged) (s.readLine bridged line)
  | sent {record id c} (sending : s.reader = .sending record id c) (listens : s.Listens c) :
    ReaderStep s .send { s.post c (.ok record) with reader := .reading }
  | unsent {record id c} (sending : s.reader = .sending record id c) (deaf : ¬s.Listens c) :
    ReaderStep s .send { s with reader := .cleaning id }
  | cleaned {id} (cleaning : s.reader = .cleaning id) :
    ReaderStep s .clean { s with pending := s.pending.remove id, reader := .reading }
  | ended (reading : s.reader = .reading) (all : s.output[s.read]? = none) (closed : s.closed = true) :
    ReaderStep s .endOfStream (s.fail "daemon_exited")
  | broke (reading : s.reader = .reading) : ReaderStep s .readError (s.fail "daemon_read_failed")
  | drained {code senders} (failing : s.reader = .failing code) (all : senders.Perm (s.pending.map Prod.snd)) :
    ReaderStep s .drain { s with pending := [], reader := .draining code senders }
  | told {code c rest} (draining : s.reader = .draining code (c :: rest)) (listens : s.Listens c) :
    ReaderStep s .tell { s.post c (.error code) with reader := .draining code rest }
  | untold {code c rest} (draining : s.reader = .draining code (c :: rest)) (deaf : ¬s.Listens c) :
    ReaderStep s .tell { s with reader := .draining code rest }
  | stopped {code} (draining : s.reader = .draining code []) : ReaderStep s .stop { s with reader := .stopped }

inductive CallerStep (calls : Nat → Call) (s : Process) (c : Nat) : Action → Process → Prop where
  | refused (idle : s.callers c = .idle) (broken : s.broken = true) :
    CallerStep calls s c (.check c) (s.move c (.returned (.error "daemon_exited")))
  | checked (idle : s.callers c = .idle) (whole : s.broken = false) : CallerStep calls s c (.check c) (s.move c .checked)
  | conflict (checked : s.callers c = .checked) (known : (s.pending.get (calls c).requestId).isSome = true) :
    CallerStep calls s c (.insert c) (s.move c (.returned (.error "daemon_request_id_conflict")))
  | inserted (checked : s.callers c = .checked) (fresh : s.pending.get (calls c).requestId = none) :
    CallerStep calls s c (.insert c) { s.move c .registered with pending := s.pending ++ [((calls c).requestId, c)] }
  | wrote (registered : s.callers c = .registered) : CallerStep calls s c (.write c) (s.move c .waiting)
  | unwritten (registered : s.callers c = .registered) (down : s.running = false) :
    CallerStep calls s c (.write c) (s.move c .unwritten)
  | unregistered (failed : s.callers c = .unwritten) :
    CallerStep calls s c (.unregister c)
      { s.move c (.breaking (.error "daemon_write_failed") false) with
        pending := s.pending.remove (calls c).requestId }
  | received {record rest} (waiting : s.callers c = .waiting) (mail : s.queues c = .ok record :: rest) :
    CallerStep calls s c (.receive c)
      { s.move c ((calls c).take record.response) with
        queues := update s.queues c rest
        received := update s.received c (s.received c ++ [record]) }
  | receivedError {code rest} (waiting : s.callers c = .waiting) (mail : s.queues c = .error code :: rest) :
    CallerStep calls s c (.receive c)
      { s.move c (.leaving (.error code)) with queues := update s.queues c rest }
  | disconnected (waiting : s.callers c = .waiting) (empty : s.queues c = []) (alone : ¬s.Held c) :
    CallerStep calls s c (.disconnect c) (s.move c (.breaking (.error "daemon_exited") true))
  | broke {outcome listed} (breaking : s.callers c = .breaking outcome listed) :
    CallerStep calls s c (.markBroken c) { s.move c (.killing outcome listed) with broken := true }
  | killed {outcome} (killing : s.callers c = .killing outcome true) :
    CallerStep calls s c (.kill c) { s.move c (.leaving outcome) with running := false, closed := true }
  | gaveUp {outcome} (killing : s.callers c = .killing outcome false) :
    CallerStep calls s c (.kill c) { s.move c (.returned outcome) with running := false, closed := true }
  | left {outcome} (leaving : s.callers c = .leaving outcome) :
    CallerStep calls s c (.leave c)
      { s.move c (.returned outcome) with pending := s.pending.remove (calls c).requestId }

inductive DaemonStep (s : Process) : Action → Process → Prop where
  | line (line : Line) (running : s.running = true) (opened : s.closed = false) :
    DaemonStep s (.daemonLine line) { s with output := s.output ++ [line] }
  | closed (running : s.running = true) : DaemonStep s .closeStdout { s with closed := true }
  | exited (running : s.running = true) : DaemonStep s .exit { s with running := false, closed := true }

inductive Step (calls : Nat → Call) (s : Process) (a : Action) (t : Process) : Prop where
  | reader (step : ReaderStep s a t)
  | caller (c : Nat) (step : CallerStep calls s c a t)
  | daemon (step : DaemonStep s a t)

end Kassiber.Supervisor
