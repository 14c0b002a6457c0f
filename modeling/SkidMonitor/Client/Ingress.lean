import SkidMonitor.Core.Envelope
import SkidMonitor.Lib.Numeral

/-! The ingress of the browser client: raw bridges and the cloud stream of a client API. All
callbacks run one at a time on the page, so each event is one step on its state. What the
browser and the network decide is part of the event. -/
namespace SkidMonitor.Browser

abbrev Endpoint := Str

def maxReconnectAttempts : ℕ := 8
def maxReconnectDelayMs : ℕ := 30000

/-- An endpoint in its normal form. The scheme of its text says which kind it is. -/
inductive BrowserEndpoint where
  | rawWebSocket (endpoint : Endpoint)
  | cloudApi (endpoint : Endpoint)
  deriving DecidableEq

def BrowserEndpoint.key : BrowserEndpoint → Endpoint
  | .rawWebSocket endpoint | .cloudApi endpoint => endpoint

inductive BrowserStorageScope where
  | legacy
  | cloudPending
  | cloud (endpoint : Endpoint) (tenantId : TenantId)
  deriving DecidableEq

inductive IngressMessage where
  | listening (endpoints : List Endpoint)
  | signal (listener : Endpoint) (signal : Signal)
  | error (listener : Option Endpoint) (error : Str)
  | browserStorageScope (scope : BrowserStorageScope)
  deriving DecidableEq

structure DecodedJsonSignal where
  signal : Signal
  cursor : Option UInt64
  tenantId : Option TenantId

/-- Sockets are named by their position in the list of all sockets of the page. -/
structure CloudConnection where
  generation : UInt64
  tenantId : Option TenantId
  socket : Option ℕ
  reconnectAttempt : ℕ
  persistedCursor : UInt64
  connecting : Bool
  deriving DecidableEq

inductive BrowserConnection where
  | raw (socket : ℕ)
  | cloud (connection : CloudConnection)
  deriving DecidableEq

inductive SocketPhase where
  | connecting
  | opened
  | closing
  | closed
  deriving DecidableEq

/-- What the handlers of a cloud socket hold, and the position its stream starts after. -/
structure CloudStream where
  generation : UInt64
  tenantId : TenantId
  after : UInt64
  deriving DecidableEq

/-- A raw socket has no stream. Events of a detached socket reach no handler. -/
structure Socket where
  endpoint : Endpoint
  stream : Option CloudStream
  attached : Bool := true
  phase : SocketPhase := .connecting
  deriving DecidableEq

/-- A scheduled reconnect: its wait is that of the given attempt. -/
structure RetryTimer where
  endpoint : Endpoint
  generation : UInt64
  attempt : ℕ
  deriving DecidableEq

/-- `messages` are all messages ever queued; `tickets` and `timers` are the pending ones. -/
structure Page where
  connections : AList fun _ : Endpoint => BrowserConnection
  active : List Endpoint
  nextGeneration : UInt64
  messages : List IngressMessage
  sockets : List Socket
  tickets : List (Endpoint × UInt64)
  timers : List RetryTimer
  localStorage : Str → Option Str

namespace Page

def start (localStorage : Str → Option Str) : Page where
  connections := ∅
  active := []
  nextGeneration := 1
  messages := [.listening []]
  sockets := []
  tickets := []
  timers := []
  localStorage

variable (s : Page)

@[simps] def pushMessage (message : IngressMessage) : Page :=
  { s with messages := s.messages ++ [message] }

def reportError (listener : Option Endpoint) (error : Str) : Page :=
  s.pushMessage (.error listener error)

def publishActiveSnapshot : Page := s.pushMessage (.listening s.active)

def publishStorageScope (scope : BrowserStorageScope) : Page :=
  s.pushMessage (.browserStorageScope scope)

local instance : LawfulBEq Endpoint := inferInstanceAs (LawfulBEq (List Char))

@[simps] def addActive (endpoint : Endpoint) : Page :=
  { s with
    active :=
      if endpoint ∈ s.active then s.active else s.active.orderedInsert (· ≤ ·) endpoint }

@[simps] def removeActive (endpoint : Endpoint) : Page :=
  { s with active := s.active.filter (· ≠ endpoint) }

/-- The cloud connection of an endpoint. -/
def cloud? (endpoint : Endpoint) : Option CloudConnection :=
  match s.connections.lookup endpoint with
  | some (.cloud connection) => some connection
  | _ => none

@[simps] def setCloud (endpoint : Endpoint) (connection : CloudConnection) : Page :=
  { s with connections := s.connections.insert endpoint (.cloud connection) }

/-- A new socket, with its handlers attached. -/
@[simps] def newSocket (endpoint : Endpoint) (stream : Option CloudStream) : Page :=
  { s with sockets := s.sockets ++ [{ endpoint, stream }] }

/-- A ticket request is under way. -/
@[simps] def addTicket (endpoint : Endpoint) (generation : UInt64) : Page :=
  { s with tickets := s.tickets ++ [(endpoint, generation)] }

@[simps] def addTimer (timer : RetryTimer) : Page := { s with timers := s.timers ++ [timer] }

/-- Detaches the handlers of a socket and closes it. -/
@[simps] def detachAndClose (socket : ℕ) : Page :=
  { s with
    sockets := s.sockets.modify socket fun k =>
      { k with attached := false, phase := if k.phase = .closed then .closed else .closing } }

/-- Closes the socket of a connection, if it has one. -/
def closeSocket (connection : CloudConnection) : Page :=
  match connection.socket with
  | some socket => s.detachAndClose socket
  | none => s

@[simps] def setPhase (socket : ℕ) (phase : SocketPhase) : Page :=
  { s with sockets := s.sockets.modify socket fun k => { k with phase } }

end Page

def cursorStoragePrefix : Str := "skid-monitor.cloud.cursor.v1:".toList

def cursorStorageKey (cloudApi : Endpoint) (tenantId : TenantId) : Str :=
  cursorStoragePrefix ++ cloudApi ++ ":tenant:".toList ++ Uuids.print tenantId.uuid

namespace Page

variable (s : Page)

/-- `access` is how the browser answers the access to the storage. -/
def loadCursor (cloudApi : Endpoint) (tenantId : TenantId) (access : Except Str Unit) :
    Except Str UInt64 := do
  access
  match s.localStorage (cursorStorageKey cloudApi tenantId) with
  | none => return 0
  | some value =>
    match Numeral.readU64 value with
    | some cursor => return cursor
    | none => throw "stored cloud stream cursor is invalid; starting from cursor zero".toList

@[simps] def persistCursor (cloudApi : Endpoint) (tenantId : TenantId) (cursor : UInt64) : Page :=
  { s with
    localStorage :=
      Function.update s.localStorage (cursorStorageKey cloudApi tenantId)
        (some (Numeral.print cursor.toNat)) }

def beginCloudConnect (endpoint : Endpoint) (generation : UInt64) : Page :=
  match s.cloud? endpoint with
  | none => s
  | some connection =>
    if connection.generation ≠ generation ∨ connection.connecting then s
    else
      (s.setCloud endpoint { connection with connecting := true }).addTicket endpoint generation

def setCloudConnecting (endpoint : Endpoint) (generation : UInt64) (connecting : Bool) : Page :=
  match s.cloud? endpoint with
  | none => s
  | some connection =>
    if connection.generation = generation then s.setCloud endpoint { connection with connecting }
    else s

/-- The wait before an attempt: it doubles from one second to half a minute. -/
def retryDelayMs (attempt : ℕ) : ℕ :=
  min (min (1000 * 2 ^ (attempt - 1)) (2 ^ 32 - 1)) maxReconnectDelayMs

def scheduleCloudRetry (endpoint : Endpoint) (generation : UInt64) (reason : Str) : Page :=
  match s.cloud? endpoint with
  | none => s
  | some connection =>
    if connection.generation ≠ generation ∨ connection.connecting then s
    else if maxReconnectAttempts ≤ connection.reconnectAttempt then
      s.reportError (some endpoint)
        "cloud reconnect limit reached; disconnect and connect again to retry".toList
    else
      let attempt := connection.reconnectAttempt + 1
      let s := s.setCloud endpoint { connection with reconnectAttempt := attempt }
      let s := s.reportError (some endpoint)
        (reason ++ " (retry ".toList ++ Numeral.print attempt ++ "/".toList ++
          Numeral.print maxReconnectAttempts ++ " in ".toList ++
          Numeral.print (retryDelayMs attempt / 1000) ++ "s)".toList)
      s.addTimer ⟨endpoint, generation, attempt⟩

/-- Returns the position to resume after, unless the connection is gone. -/
def prepareCloudTenant (endpoint : Endpoint) (generation : UInt64) (tenantId : TenantId)
    (access : Except Str Unit) : Page × Option UInt64 :=
  match s.cloud? endpoint with
  | none => (s, none)
  | some connection =>
    if connection.generation ≠ generation then (s, none)
    else if connection.tenantId = some tenantId then (s, some connection.persistedCursor)
    else
      let (s, persistedCursor) :=
        match s.loadCursor endpoint tenantId access with
        | .ok cursor => (s, cursor)
        | .error error => (s.reportError (some endpoint) error, 0)
      let s := s.setCloud endpoint { connection with tenantId := some tenantId, persistedCursor }
      (s.publishStorageScope (.cloud endpoint tenantId), some persistedCursor)

/-- `opens` is how the browser answers the creation of the socket. -/
def openCloudSocket (endpoint : Endpoint) (generation : UInt64) (tenantId : TenantId)
    (access opens : Except Str Unit) : Page × Except Str Unit :=
  match s.prepareCloudTenant endpoint generation tenantId access with
  | (s, none) => (s, .ok ())
  | (s, some after) =>
    match opens with
    | .error error => (s, .error error)
    | .ok _ =>
      let socket := s.sockets.length
      let s := s.newSocket endpoint (some ⟨generation, tenantId, after⟩)
      match s.cloud? endpoint with
      | none => (s.detachAndClose socket, .ok ())
      | some connection =>
        if connection.generation ≠ generation then (s.detachAndClose socket, .ok ())
        else
          let s := s.closeSocket connection
          (s.setCloud endpoint { connection with socket := some socket }, .ok ())

/-- The ticket request has ended, with the tenant the ticket names or an error. -/
def ticketAcquired (endpoint : Endpoint) (generation : UInt64)
    (ticket : Except Str TenantId) (access opens : Except Str Unit) : Page :=
  let opened : Page × Except Str Unit :=
    match ticket with
    | .error error => (s, .error error)
    | .ok tenantId => s.openCloudSocket endpoint generation tenantId access opens
  match opened with
  | (s, .ok _) => s
  | (s, .error error) =>
    (s.setCloudConnecting endpoint generation false).scheduleCloudRetry endpoint generation error

/-- Whether a record of the stream of a tenant is news to the connection. -/
def shouldQueue (endpoint : Endpoint) (generation : UInt64) (tenantId : TenantId)
    (cursor : UInt64) : Bool :=
  match s.cloud? endpoint with
  | none => false
  | some connection =>
    connection.generation = generation ∧ connection.tenantId = some tenantId ∧
      connection.persistedCursor < cursor

/-- `access` is how the browser answers the write of the cursor. -/
def queueCloudRecord (endpoint : Endpoint) (generation : UInt64) (tenantId : TenantId)
    (record : DecodedJsonSignal) (access : Except Str Unit) : Page :=
  match record.cursor with
  | none =>
    s.reportError (some endpoint) "cloud stream payload is not a full SignalRecord".toList
  | some cursor =>
    if record.tenantId ≠ some tenantId then
      s.reportError (some endpoint)
        "cloud stream SignalRecord tenant does not match the authenticated stream".toList
    else if s.shouldQueue endpoint generation tenantId cursor then
      let s := s.pushMessage (.signal endpoint record.signal)
      match access with
      | .error error => s.reportError (some endpoint) error
      | .ok _ =>
        let s := s.persistCursor endpoint tenantId cursor
        match s.cloud? endpoint with
        | none => s
        | some connection =>
          if connection.generation = generation ∧ connection.tenantId = some tenantId then
            s.setCloud endpoint
              { connection with persistedCursor := max connection.persistedCursor cursor }
          else s
    else s

/-- Drops the raw connections whose sockets have closed. -/
@[simps] def retainOpen : Page :=
  { s with
    connections :=
      ⟨s.connections.entries.filter fun entry =>
          match entry.2 with
          | .raw socket => (s.sockets[socket]?.map Socket.phase) ≠ some .closed
          | .cloud _ => true,
        s.connections.nodupKeys.sublist List.filter_sublist⟩ }

def hasCloud : Bool :=
  s.connections.entries.any fun entry =>
    match entry.2 with
    | .cloud _ => true
    | .raw _ => false

def hasRaw : Bool :=
  s.connections.entries.any fun entry =>
    match entry.2 with
    | .cloud _ => false
    | .raw _ => true

/-- `opens` is how the browser answers the creation of the socket. -/
def addRaw (endpoint : Endpoint) (opens : Except Str Unit) :
    Page × Except Str Unit :=
  match opens with
  | .error error => (s, .error error)
  | .ok _ =>
    let socket := s.sockets.length
    let s := s.newSocket endpoint none
    let s := { s with connections := s.connections.insert endpoint (.raw socket) }
    (s.publishStorageScope .legacy, .ok ())

/-- The generation after `generation`; zero is skipped. -/
def generationAfter (generation : UInt64) : UInt64 := max (generation + 1) 1

/-- `opens` is the answer of the check that the endpoint has the origin of the page. -/
def addCloud (endpoint : Endpoint) (opens : Except Str Unit) :
    Page × Except Str Unit :=
  match opens with
  | .error error => (s, .error error)
  | .ok _ =>
    let generation := s.nextGeneration
    let s := { s with nextGeneration := generationAfter generation }
    let s := s.setCloud endpoint ⟨generation, none, none, 0, 0, false⟩
    let s := s.publishStorageScope .cloudPending
    let s := (s.addActive endpoint).publishActiveSnapshot
    (s.beginCloudConnect endpoint generation, .ok ())

def add (endpoint : BrowserEndpoint) (opens : Except Str Unit) :
    Page × Except Str Unit :=
  let s := s.retainOpen
  if (s.connections.lookup endpoint.key).isSome then
    (s, .error ("ingress ".toList ++ endpoint.key ++ " is already connected or connecting".toList))
  else
    match endpoint with
    | .cloudApi endpoint =>
      if s.hasCloud || s.hasRaw then
        (s, .error "cloud client API mode must be the browser's only ingress connection".toList)
      else s.addCloud endpoint opens
    | .rawWebSocket endpoint =>
      if s.hasCloud then
        (s, .error "raw WebSocket ingress cannot be mixed with cloud client API mode".toList)
      else s.addRaw endpoint opens

def remove (endpoint : BrowserEndpoint) : Page × Except Str Unit :=
  match s.connections.lookup endpoint.key with
  | none => (s, .error ("ingress ".toList ++ endpoint.key ++ " is not connected".toList))
  | some connection =>
    let s := { s with connections := s.connections.erase endpoint.key }
    let s :=
      match connection with
      | .raw socket => s.detachAndClose socket
      | .cloud connection => s.closeSocket connection
    let s := (s.removeActive endpoint.key).publishActiveSnapshot
    let s :=
      match connection with
      | .cloud _ => s.publishStorageScope .cloudPending
      | .raw _ => s
    (s, .ok ())

def socketOpened (k : Socket) : Page :=
  match k.stream with
  | none => (s.addActive k.endpoint).publishActiveSnapshot
  | some stream =>
    match s.cloud? k.endpoint with
    | none => s
    | some connection =>
      if connection.generation = stream.generation then
        s.setCloud k.endpoint { connection with connecting := false, reconnectAttempt := 0 }
      else s

def socketMessage (k : Socket) (data : Except Str DecodedJsonSignal)
    (access : Except Str Unit) : Page :=
  match k.stream, data with
  | none, .ok decoded => s.pushMessage (.signal k.endpoint decoded.signal)
  | some stream, .ok decoded =>
    s.queueCloudRecord k.endpoint stream.generation stream.tenantId decoded access
  | _, .error error => s.reportError (some k.endpoint) error

def socketError (k : Socket) : Page :=
  s.reportError (some k.endpoint) <|
    match k.stream with
    | none => "WebSocket error on ".toList ++ k.endpoint
    | some _ => "cloud signal stream WebSocket error".toList

def socketClosed (k : Socket) (wasClean : Bool) (code : ℕ) (reason : Str) : Page :=
  match k.stream with
  | none =>
    let s := (s.removeActive k.endpoint).publishActiveSnapshot
    if wasClean then s
    else
      s.reportError (some k.endpoint)
        ("WebSocket ".toList ++ k.endpoint ++ " closed with code ".toList ++ Numeral.print code ++
          ": ".toList ++ reason)
  | some stream =>
    let detail :=
      if wasClean then "cloud signal stream closed; reconnecting".toList
      else "cloud signal stream closed with code ".toList ++ Numeral.print code ++
        "; reconnecting".toList
    (s.setCloudConnecting k.endpoint stream.generation false).scheduleCloudRetry k.endpoint
      stream.generation detail

end Page

/-- `startup` marks the endpoints the page is configured with: their errors are reported. -/
inductive PageEvent where
  | add (endpoint : BrowserEndpoint) (opens : Except Str Unit) (startup : Bool)
  | remove (endpoint : BrowserEndpoint)
  | ticketDone (endpoint : Endpoint) (generation : UInt64) (ticket : Except Str TenantId)
      (access opens : Except Str Unit)
  | timerFired (timer : RetryTimer)
  | socketOpened (socket : ℕ)
  | socketMessage (socket : ℕ) (data : Except Str DecodedJsonSignal)
      (access : Except Str Unit)
  | socketError (socket : ℕ)
  | socketClosed (socket : ℕ) (wasClean : Bool) (code : ℕ) (reason : Str)
  | otherPage (key : Str) (value : Option Str)

/-- The page after the handler of a socket, if it is attached, has run. -/
def Page.handle (s : Page) (k : Socket) (handler : Page → Page) : Page :=
  if k.attached then handler s else s

def Page.step (s : Page) : PageEvent → Option Page
  | .add endpoint opens startup =>
    match s.add endpoint opens with
    | (s, .ok _) => some s
    | (s, .error error) => some (if startup then s.reportError (some endpoint.key) error else s)
  | .remove endpoint => some (s.remove endpoint).1
  | .ticketDone endpoint generation ticket access opens =>
    if (endpoint, generation) ∈ s.tickets then
      some ({ s with tickets := s.tickets.erase (endpoint, generation) }.ticketAcquired endpoint
        generation ticket access opens)
    else none
  | .timerFired timer =>
    if timer ∈ s.timers then
      some ({ s with timers := s.timers.erase timer }.beginCloudConnect timer.endpoint
        timer.generation)
    else none
  | .socketOpened socket => do
    let k ← s.sockets[socket]?
    if k.phase = .connecting then
      some ((s.setPhase socket .opened).handle k (·.socketOpened k))
    else none
  | .socketMessage socket data access => do
    let k ← s.sockets[socket]?
    if k.phase = .closed then none else some (s.handle k (·.socketMessage k data access))
  | .socketError socket => do
    let k ← s.sockets[socket]?
    if k.phase = .closed then none else some (s.handle k (·.socketError k))
  | .socketClosed socket wasClean code reason => do
    let k ← s.sockets[socket]?
    if k.phase = .closed then none
    else some ((s.setPhase socket .closed).handle k (·.socketClosed k wasClean code reason))
  | .otherPage key value =>
    some { s with localStorage := Function.update s.localStorage key value }

/-- The socket of an event has not been closed. -/
theorem Page.of_socket {s v : Page} {i : ℕ} {f : Socket → Page} (h : (s.sockets[i]?.bind fun k =>
    if k.phase = .closed then none else some (f k)) = some v) :
    ∃ k, s.sockets[i]? = some k ∧ k.phase ≠ .closed ∧ f k = v := by
  simpa only [Option.bind_eq_some_iff, Option.ite_none_left_eq_some, Option.some.injEq] using h

end SkidMonitor.Browser
