import Hydration.Fault
import Hydration.Json.Basic
import Hydration.Path

/-!
# The registry of module options

Options are stored under the absolute form of a module path.  A nickname
redirects to such a path.  The last registration of a path or of a nickname
counts.
-/

namespace Hydration

/-- The options registered for a path. -/
structure Registration where
  /-- The absolute form of the path. -/
  path : String
  options : Json

/-- Options by path, and paths by nickname. -/
structure Registry where
  /-- What relative paths continue. -/
  base : String
  /-- What was passed on to the loader of module code, newest last; none without a loader. -/
  forwarded : Option (List Registration)
  /-- One registration for each path, in the order of the first one. -/
  registrations : List Registration
  /-- One redirect for each nickname, in the order of the first one. -/
  redirects : List (String × String)

namespace Registry

/-- A registry without entries. -/
def empty (base : String) : Registry := ⟨base, none, [], []⟩

/-- The registry with a loader that every registration is passed on to. -/
def withLoader (registry : Registry) : Registry :=
  { registry with forwarded := some [] }

/-- The base of a registry that is given none. -/
def standardBase : String := "/"

/-- The absolute form of a path. -/
def absolute (registry : Registry) (path : String) : String :=
  Path.absolute registry.base path

/-- Puts a registration in the place of the one with its path, or at the end. -/
def replace (registration : Registration) : List Registration → List Registration
  | [] => [registration]
  | first :: rest =>
      if first.path = registration.path then registration :: rest
      else first :: replace registration rest

def point (nickname path : String) : List (String × String) → List (String × String)
  | [] => [(nickname, path)]
  | first :: rest =>
      if first.1 = nickname then (nickname, path) :: rest
      else first :: point nickname path rest

/-- Stores options for a path, and points a nickname at it if one is given. -/
def register
    (registry : Registry)
    (path : String)
    (options : Json)
    (nickname? : Option String) :
    Registry :=
  let path := registry.absolute path
  { registry with
    forwarded := registry.forwarded.map (· ++ [⟨path, options⟩])
    registrations := replace ⟨path, options⟩ registry.registrations
    redirects :=
      match nickname? with
      | none => registry.redirects
      | some nickname => point nickname path registry.redirects }

/-- The registration of a path that is already absolute. -/
def find? (registry : Registry) (path : String) : Option Registration :=
  registry.registrations.find? fun registration => registration.path = path

/-- The path a nickname points at; any other name stands for itself. -/
def redirect (registry : Registry) (name : String) : String :=
  ((registry.redirects.find? fun entry => entry.1 = name).map Prod.snd).getD name

/-- The registration of a path, as spelled or in its absolute form. -/
def lookup (registry : Registry) (path : String) :
    Except RegistryFault (Option Registration) :=
  if path.isEmpty then
    .error .emptyPath
  else
    match registry.find? path with
    | some registration => .ok (some registration)
    | none => .ok (registry.find? (registry.absolute path))

/-- The number of registered paths. -/
def size (registry : Registry) : Nat :=
  registry.registrations.length

/-- A replaced registration is found under its path; the others are as before. -/
theorem find?_replace
    (registration : Registration)
    (registrations : List Registration)
    (path : String) :
    (replace registration registrations).find? (fun entry => entry.path = path) =
      if registration.path = path then some registration
      else registrations.find? fun entry => entry.path = path := by
  induction registrations with
  | nil =>
      by_cases same : registration.path = path <;> simp [replace, same]
  | cons first rest inductionHypothesis =>
      simp only [replace]
      split
      · next replaced =>
          by_cases same : registration.path = path
          · simp [same]
          · simp [same, replaced]
      · next kept =>
          by_cases found : first.path = path
          · simp [found, show registration.path ≠ path from fun same => kept (found.trans same.symm)]
          · simp [found, inductionHypothesis]

/-- A nickname leads where it was pointed; the others lead where they did. -/
theorem find?_point
    (nickname path : String)
    (redirects : List (String × String))
    (name : String) :
    (point nickname path redirects).find? (fun entry => entry.1 = name) =
      if nickname = name then some (nickname, path)
      else redirects.find? fun entry => entry.1 = name := by
  induction redirects with
  | nil =>
      by_cases same : nickname = name <;> simp [point, same]
  | cons first rest inductionHypothesis =>
      simp only [point]
      split
      · next replaced =>
          by_cases same : nickname = name
          · simp [same]
          · simp [same, replaced]
      · next kept =>
          by_cases found : first.1 = name
          · simp [found, show nickname ≠ name from fun same => kept (found.trans same.symm)]
          · simp [found, inductionHypothesis]

@[simp] theorem base_register
    (registry : Registry)
    (path : String)
    (options : Json)
    (nickname? : Option String) :
    (registry.register path options nickname?).base = registry.base := rfl

theorem find?_register
    (registry : Registry)
    (path other : String)
    (options : Json)
    (nickname? : Option String) :
    (registry.register path options nickname?).find? other =
      if registry.absolute path = other then some ⟨registry.absolute path, options⟩
      else registry.find? other :=
  find?_replace ⟨registry.absolute path, options⟩ registry.registrations other

theorem redirect_register
    (registry : Registry)
    (path : String)
    (options : Json)
    (nickname? : Option String)
    (name : String) :
    (registry.register path options nickname?).redirect name =
      if nickname? = some name then registry.absolute path else registry.redirect name := by
  cases nickname? with
  | none => rfl
  | some nickname =>
      simp only [redirect, register, find?_point, Option.some.injEq]
      split <;> rfl

end Registry

end Hydration
