import ShardedLedger.Routing.Paths
import ShardedLedger.SortedMap

namespace ShardedLedger

-- The request methods that the account interface answers.
inductive Method where
  | get
  | post
  | put
  deriving DecidableEq

namespace Method

def all : List Method := [.get, .post, .put]

def name : Method → String
  | .get => "GET"
  | .post => "POST"
  | .put => "PUT"

def ofName? (name : String) : Option Method := all.find? (·.name = name)

end Method

-- What a handler sees of a request.
structure RouteRequest where
  path : String
  query : SortedMap String String
  headers : SortedMap String String
  account : String
  body : String
  deriving DecidableEq

inductive HandlerError where
  | validation (message : String)
  | notFound (what : String)
  | internal (message : String)
  deriving DecidableEq

def HandlerError.message : HandlerError → String
  | .validation message => message
  | .notFound what => "not found: " ++ what
  | .internal message => "internal error: " ++ message

inductive RouteError where
  | noRoute (method : Method) (path : String)
  | handler (error : HandlerError)
  deriving DecidableEq

def RouteError.message : RouteError → String
  | .noRoute method path => "no route for " ++ method.name ++ " " ++ path
  | .handler error => error.message

-- Handlers by method and action. Binding anew replaces what was bound.
structure RouteTable (η : Type) where
  paths : Paths
  bindings : List ((Method × String) × η)

namespace RouteTable

variable {η : Type}

def empty (apiPrefix : String) : RouteTable η := ⟨.below apiPrefix, []⟩

def bind (table : RouteTable η) (method : Method) (action : String) (handler : η) :
    RouteTable η :=
  { table with
    bindings :=
      table.bindings.filter (·.1 ≠ (method, action)) ++ [((method, action), handler)] }

def handler? (table : RouteTable η) (method : Method) (action : String) : Option η :=
  table.bindings.lookup (method, action)

def has (table : RouteTable η) (method : Method) (action : String) : Bool :=
  (table.handler? method action).isSome

def count (table : RouteTable η) : Nat := table.bindings.length

-- The handler for a request and the account that its path names.
def resolve (table : RouteTable η) (method : Method) (path : String) :
    Except RouteError (η × String) :=
  match table.paths.resolve path with
  | none => .error (.noRoute method path)
  | some destination =>
      match table.handler? method destination.action with
      | some handler => .ok (handler, destination.account)
      | none => .error (.noRoute method path)

end RouteTable

end ShardedLedger
