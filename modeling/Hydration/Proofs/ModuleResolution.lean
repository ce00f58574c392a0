import Hydration.Proofs.Imports.Pledging

/-!
# Code and options of one module

The name of a binding is what its label leads to when its element is hydrated.
Whatever is provided before and afterwards, an attempt to mount imports what was
provided last for a path with the same absolute form as that name, and the
constructor it brings is given the options registered last for a path with the
same absolute form, under those written on the element.  So however paths are
spelled, a module never gets the options of another one.
-/

namespace Hydration

/-- The options registered last for a path with the same absolute form, or null. -/
def Registering.optionsOf (base : String) (history : List Registering) (name : String) : Json :=
  ((latest? base history name).map Registering.options).getD .null

/--
What the constructor of a module is given: the registered options, under those in
a text if there is one.
-/
def Provision.argumentsOf
    (base : String)
    (told : List Provision)
    (name : String)
    (text? : Option String) :
    Except MountFault Json :=
  let registered := Registering.optionsOf base (registerings told) name
  match text? with
  | none => .ok registered
  | some text =>
      match Json.parse? text with
      | none => .error (.invalidOptions name "not a JSON text")
      | some overrides => .ok (registered.merge overrides)

namespace Call

end Call

namespace Page

variable
  {base : String} {told : List Provision} {page : Page} {settings : Settings} {hooks : Hooks}
  {key : BindingId} {attempt : Nat} {binding : Binding} {outer : List Call}

/-- The options of a binding are those that were registered last, under those of its element. -/
theorem Supplied.optionsOf
    (supplied : page.Supplied base told)
    (named : binding.name ≠ "")
    (attributeName : String) :
    page.optionsOf binding attributeName =
      Provision.argumentsOf base told binding.name
        (page.scene.tree.attribute? binding.element attributeName) := by
  obtain ⟨forwarded, registry⟩ := supplied.registry
  unfold Page.optionsOf Provision.argumentsOf Registering.optionsOf
  rw [registry, Registry.lookup_recording named]
  cases Registering.latest? base (Provision.registerings told) binding.name <;> rfl

end Page

end Hydration
