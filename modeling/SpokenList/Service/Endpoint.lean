import SpokenList.Service.Address

/-! # Endpoints

What the service answers to: each endpoint has the one method that it is asked
by and one path or two.  A path is also that of an endpoint with a line feed at
its end, or with slashes.
-/
namespace SpokenList.Service

/-- What the service answers to. -/
inductive Endpoint where
  | health
  | items
  | plan
  | execute
  deriving DecidableEq, Repr

namespace Endpoint

/-- The one method that each is asked by. -/
def method : Endpoint → Text
  | health => "GET"
  | items => "GET"
  | plan => "POST"
  | execute => "POST"

/-- The endpoints that there are also under the version of the interface. -/
def versioned : List (Text × Endpoint) :=
  [("/voice/plan", plan), ("/voice/execute", execute), ("/items", items)]

/-- Where the version of the interface stands in a path. -/
def version : Text := "/api/v1"

/-- Every path. -/
def paths : List (Text × Endpoint) :=
  [(("/health" : Text), health)] ++ versioned ++ versioned.map fun p => (version ++ p.1, p.2)

/-- The endpoint at a path, which a line feed may follow. -/
def atPath? (path : Text) : Option Endpoint :=
  (paths.find? fun p => p.1 == path || p.1 ++ ['\n'] == path).map (·.2)

/-- The path without the slashes at its end. -/
def withoutSlashes (path : Text) : Text := (path.reverse.dropWhile (· == '/')).reverse

/-- The endpoint that an address names. -/
def ofAddress? (address : Text) : Option Endpoint :=
  let path := Address.path address
  (atPath? path).orElse fun _ => atPath? (withoutSlashes path)

end Endpoint
end SpokenList.Service
