import InlineRepl.Session.Basic

/-!
# The registry of sessions

Sessions by id, and an index from project roots to ids. Roots count as the same when their
components are. Ids are handed out in increasing order and never twice.
-/

namespace InlineRepl

/-- The live sessions. -/
structure Registry where
  /-- The sessions, the youngest entry first. -/
  sessions : List Session := []
  /-- The id that stands for each root. -/
  byRoot : List (Path × SessionId) := []
  /-- The last id handed out. -/
  lastId : UInt64 := 0
  deriving Repr, DecidableEq

namespace Registry

/-- Hands out an id. -/
def nextId (registry : Registry) : SessionId × Registry :=
  let id := registry.lastId + 1
  (⟨id⟩, { registry with lastId := id })

/-- The session of an id. -/
def get? (registry : Registry) (id : SessionId) : Option Session :=
  registry.sessions.find? fun s => decide (s.id = id)

/-- The id is registered. -/
def contains (registry : Registry) (id : SessionId) : Bool :=
  (registry.get? id).isSome

/-- The sessions of the other ids. -/
def without (registry : Registry) (id : SessionId) : List Session :=
  registry.sessions.filter fun s => decide (s.id ≠ id)

/-- The id that stands for a root. -/
def idOfRoot? (registry : Registry) (root : Path) : Option SessionId :=
  (registry.byRoot.find? fun entry => entry.1.same root).map Prod.snd

/-- The session of a root. -/
def findByRoot? (registry : Registry) (root : Path) : Option Session :=
  (registry.idOfRoot? root).bind registry.get?

/-- The index entries of the other roots. -/
def otherRoots (registry : Registry) (root : Path) : List (Path × SessionId) :=
  registry.byRoot.filter fun entry => !entry.1.same root

/-- Changes the session of an id. -/
def modify (registry : Registry) (id : SessionId) (change : Session → Session) : Registry :=
  { registry with
    sessions := registry.sessions.map fun s => if s.id = id then change s else s }

/-- What an insertion put out of the registry. -/
structure Insertion where
  registry : Registry
  /-- The session that stood for the same root under another id. -/
  displaced : Option Session
  /-- The session that had the same id. -/
  replaced : Option Session

/-- Registers a session under its id and its root. -/
def insert (registry : Registry) (session : Session) : Insertion :=
  let displacedId :=
    (registry.idOfRoot? session.root).filter fun id => decide (id ≠ session.id)
  let displaced := displacedId.bind registry.get?
  let cleared :=
    match displacedId with
    | some id => { registry with sessions := registry.without id }
    | none => registry
  { displaced
    replaced := cleared.get? session.id
    registry :=
      { cleared with
        sessions := session :: cleared.without session.id
        byRoot := (session.root, session.id) :: registry.otherRoots session.root } }

/-- Takes a session out. The root is free again if it stood for this session. -/
def remove (registry : Registry) (id : SessionId) : Option (Session × Registry) :=
  match registry.get? id with
  | none => none
  | some session =>
    let byRoot :=
      if registry.idOfRoot? session.root = some id then registry.otherRoots session.root
      else registry.byRoot
    some (session, { registry with sessions := registry.without id, byRoot })

/-- Puts an id among increasing ones. -/
def insertId (id : SessionId) : List SessionId → List SessionId
  | [] => [id]
  | other :: others =>
    if id.val ≤ other.val then id :: other :: others else other :: insertId id others

/-- The registered ids in increasing order. -/
def ids (registry : Registry) : List SessionId :=
  (registry.sessions.map Session.id).foldr insertId []

/-- No session is registered. -/
def isEmpty (registry : Registry) : Bool :=
  registry.sessions.isEmpty

/-- Some session has not finished its handshake. -/
def anyConnecting (registry : Registry) : Bool :=
  registry.sessions.any Session.isConnecting

end Registry

end InlineRepl
