import InjectionPlan.Session.Bound
import InjectionPlan.Session.Queue

namespace InjectionPlan

/-!
# Sessions

A session shows parts of one graph to one sink.  It is started, then its root is set, then nodes
are shown, and at last the edges that wait are handed over.  Every operation gives its result
together with the session that goes on: after an error the session is what it was when the error
arose, with all that had been done until then.

A walk is carried out action by action until the sink refuses a node.  If it refuses none the
result of the walk is the result of the operation.
-/

/-- The state of a session. -/
structure Session (State : Type u) where
  scene : Scene
  sink : Sink State
  /-- The state of the sink. -/
  store : State
  registry : Registry
  queue : Queue
  nodesWritten : Nat
  unboundParameters : Nat
  /-- What was logged, the oldest first. -/
  log : Array LogEvent

/-- What a finished session has handed over. -/
structure Summary where
  nodes : Nat
  edges : Nat
  unboundParameters : Nat
deriving DecidableEq, Inhabited

namespace Session

variable {State : Type u}

def logged (session : Session State) (event : LogEvent) : Session State :=
  { session with log := session.log.push event }

/-- The nodes of a list that are in a graph, each of them once. -/
def inGraph (graph : Graph) (nodes : List NodeId) : List NodeId :=
  (nodes.filter graph.contains).eraseDups

/-- Starts a session.  Nodes that are not in the graph are not among those that are not shared. -/
def start (graph : Graph) (unshared : List NodeId) (sink : Sink State) (store : State) :
    Session State :=
  let unshared := inGraph graph unshared
  { scene := ⟨graph, unshared⟩
    sink := sink
    store := store
    registry := .empty
    queue := .empty
    nodesWritten := 0
    unboundParameters := 0
    log := #[.unsharedNodes unshared.length] }

/-- Hands a node to the sink and counts it. -/
def offer (session : Session State) (node : Diagram.Node) :
    Except Refusal Unit × Session State :=
  match session.sink.takeNode node session.store with
  | (.ok (), store) =>
    (.ok (), { session with store := store, nodesWritten := session.nodesWritten + 1 })
  | (.error refusal, store) => (.error refusal, { session with store := store })

/-- Queues an edge. -/
def enqueue (session : Session State) (edge : Diagram.Edge) : Session State :=
  { session with queue := session.queue.enqueue edge }

/-- Carries out one action. -/
def perform (session : Session State) : Action -> Except Refusal Unit × Session State
  | .identify node =>
    let identifier := session.registry.identifierFor node
    (.ok (), { session with registry := session.registry.apply (.identify node) }.logged
      (.renderingNode node identifier))
  | .record id target =>
    (.ok (), { session with registry := session.registry.apply (.record id target) })
  | .offer node => session.offer node
  | .enqueue edge => (.ok (), session.enqueue edge)
  | .unbound qualifier =>
    (.ok (), { session with unboundParameters := session.unboundParameters + 1 }.logged
      (.parameterNotBound qualifier))
  | .note event => (.ok (), session.logged event)

/-- Carries out actions until the sink refuses a node. -/
def performAll : (session : Session State) -> List Action -> Except Refusal Unit × Session State
  | session, [] => (.ok (), session)
  | session, action :: rest =>
    match session.perform action with
    | (.ok (), next) => performAll next rest
    | (.error refusal, next) => (.error refusal, next)

/-- Carries out a walk. -/
def carryOut (session : Session State) (course : Course α) :
    Except DumpError α × Session State :=
  match session.performAll course.actions with
  | (.ok (), next) => (course.result, next)
  | (.error refusal, next) => (.error (.sink refusal), next)

/-- The node that shows the root. -/
def rootNode : Diagram.Node :=
  (((Diagram.Node.plain Identifier.root.text).setText "label" "root").setText "shape" "box").setText
    "style" "rounded"

/-- Sets the root and shows it. -/
def setRoot (session : Session State) (root : NodeId) :
    Except DumpError Identifier × Session State :=
  if session.scene.graph.contains root then
    match session.registry.reserveRoot root with
    | .error error => (.error error, session)
    | .ok registry =>
      match { session with registry := registry }.offer rootNode with
      | (.ok (), next) => (.ok .root, next)
      | (.error refusal, next) => (.error (.sink refusal), next)
  else (.error (.unknownNode root), session)

/-- Shows a node with all that it depends on, unless it has been shown, and gives its target. -/
def process (session : Session State) (node : NodeId) :
    Except DumpError String × Session State :=
  if session.registry.hasRoot then
    session.carryOut (session.scene.course node session.registry)
  else (.error .rootNotSet, session)

/-- The target recorded for a node. -/
def target? (session : Session State) (node : NodeId) : Option String :=
  (session.registry.identifier? node).bind fun identifier =>
    session.registry.target? identifier.text

/-- Hands over the edges that wait and sums up.  Nothing is to be done with the session after
that, apart from looking at its sink and its log. -/
def finish (session : Session State) : Except DumpError Summary × Session State :=
  if session.registry.hasRoot then
    let flush := session.queue.flush session.registry session.sink session.store
    let next := { session with queue := flush.queue, store := flush.store }
    match flush.result with
    | .error refusal => (.error (.sink refusal), next)
    | .ok edges =>
      (.ok ⟨next.nodesWritten, edges, next.unboundParameters⟩,
        next.logged (.finished next.nodesWritten edges))
  else (.error .rootNotSet, session)

/-- The edge from the root to what it depends on. -/
def rootEdge (target : String) : Diagram.Edge :=
  (Diagram.Edge.plain Identifier.root.text target).setText "arrowhead" "vee"

/-- Shows what the edges of the root lead to, and queues an edge for each. -/
def showAll : (session : Session State) -> List Edge -> Except DumpError Unit × Session State
  | session, [] => (.ok (), session)
  | session, edge :: rest =>
    match session.process edge.tail with
    | (.error error, next) => (.error error, next)
    | (.ok target, next) => showAll (next.enqueue (rootEdge target)) rest

end Session

/-- Shows a graph from a root on: the root, what it depends on, and all edges between them. -/
def Graph.dump {State : Type u} (graph : Graph) (root : NodeId) (unshared : List NodeId)
    (sink : Sink State) (store : State) : Except DumpError Summary × Session State :=
  match (Session.start graph unshared sink store).setRoot root with
  | (.error error, session) => (.error error, session)
  | (.ok _, session) =>
    match session.showAll (graph.dependencies root) with
    | (.error error, session) => (.error error, session)
    | (.ok (), session) => session.finish

end InjectionPlan
