import RydTrip.Http.Path

/-!
# Routers

A router goes through its routes in order.  The first one whose pattern and
method fit handles the request.  A GET route also answers HEAD.  A parameter
that cannot be decoded ends the search, whatever the method.
-/

namespace Http

structure Route (h : Type) where
  method : String
  pattern : Pattern
  handler : h

variable {h : Type}

def Route.answers (route : Route h) (method : String) : Bool :=
  method = route.method || (method = "HEAD" && route.method = "GET")

/-- What a router does with a request. -/
inductive Dispatch (h : Type) where
  | notFound
  | badRequest
  | found (route : Route h) (params : List String)

/-- One trailing slash is optional. -/
def dropSlash (segments : List Segment) : List Segment :=
  if 1 < segments.length ∧ segments.getLast? = some [] then segments.dropLast else segments

def dispatch (method : String) (segments : List Segment) : List (Route h) → Dispatch h
  | [] => .notFound
  | route :: routes =>
      match route.pattern.match? nocase (dropSlash segments) with
      | none => dispatch method segments routes
      | some captures =>
          match captures.mapM decodeURIComponent with
          | none => .badRequest
          | some params =>
              if route.answers method then .found route params
              else dispatch method segments routes

/-- What is known of the route that handles a request. -/
theorem dispatch_found {method : String} {segments : List Segment} {routes : List (Route h)}
    {route : Route h} {params : List String}
    (hfound : dispatch method segments routes = .found route params) :
    route ∈ routes ∧ route.answers method = true ∧
      ∃ captures, route.pattern.match? nocase (dropSlash segments) = some captures ∧
        captures.mapM decodeURIComponent = some params := by
  induction routes with
  | nil => cases hfound
  | cons route' routes ih =>
      have hrest (htail : dispatch method segments routes = .found route params) :
          route ∈ route' :: routes ∧ route.answers method = true ∧
            ∃ captures, route.pattern.match? nocase (dropSlash segments) = some captures ∧
              captures.mapM decodeURIComponent = some params := by
        obtain ⟨hmem, hroute⟩ := ih htail
        exact ⟨.tail _ hmem, hroute⟩
      rw [dispatch] at hfound
      split at hfound
      · exact hrest hfound
      next captures hcaptures =>
        split at hfound
        · cases hfound
        next params' hparams =>
          split at hfound
          next hanswers =>
            cases hfound
            exact ⟨.head _, hanswers, captures, hcaptures, hparams⟩
          · exact hrest hfound

theorem dropSlash_of_plain {segments : List Segment} (hplain : ∀ s ∈ segments, isPlain s = true) :
    dropSlash segments = segments := by
  refine if_neg fun hlast => ?_
  exact isPlain_ne_nil (hplain [] (List.mem_of_getLast? hlast.2)) rfl

/-- Plain captures are handed on as they are. -/
theorem mapM_decode_of_plain {captures : List Segment}
    (hplain : ∀ s ∈ captures, isPlain s = true) :
    captures.mapM decodeURIComponent = some (captures.map String.ofList) := by
  induction captures with
  | nil => rfl
  | cons s captures ih =>
      rw [List.mapM_cons, decodeURIComponent_plain (isPlain_not_mem (hplain s (.head _)) rfl),
        ih fun s' hs' => hplain s' (.tail _ hs')]
      rfl

end Http
