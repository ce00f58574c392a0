import Hydration.Proofs.Paths.Absolute
import Hydration.Registry

/-!
# Registered options

Whatever is registered, in whatever order, a look-up finds the options of the
last registration of the same path, however either of them is spelled: options
are only stored under absolute paths, and an absolute path is its own absolute
form, so that the spelling itself leads to the same entry or to none.  A nickname
leads to the absolute path it was given last.
-/

namespace Hydration

/-- What a host registers: options for a path, and a nickname of the path if it gives one. -/
structure Registering where
  path : String
  options : Json
  nickname : Option String

namespace Registering

/-- The last of the registrations whose path has the same absolute form. -/
def latest? (base : String) (history : List Registering) (path : String) : Option Registering :=
  history.findRev? fun entry => Path.absolute base entry.path = Path.absolute base path

/-- The last of the registrations with a nickname. -/
def latestNamed? (history : List Registering) (nickname : String) : Option Registering :=
  history.findRev? fun entry => entry.nickname = some nickname

/-- The path that a name stands for: the one it is a nickname of, or itself. -/
def pathOf (base : String) (history : List Registering) (name : String) : String :=
  (latestNamed? history name).elim name fun entry => Path.absolute base entry.path

/-- What is said about another spelling of a path is said about the path. -/
theorem latest?_congr
    {base path other : String}
    (same : Path.absolute base path = Path.absolute base other)
    (history : List Registering) :
    latest? base history path = latest? base history other := by
  simp only [latest?, same]

end Registering

theorem findRev?_cons {α : Type} (property : α → Bool) (first : α) (rest : List α) :
    (first :: rest).findRev? property =
      (rest.findRev? property).or (if property first then some first else none) := by
  rw [List.findRev?]
  cases rest.findRev? property with
  | none => cases property first <;> rfl
  | some _ => rfl

namespace Registry

/-- A registry after registrations, the first of them first. -/
def afterAll (registry : Registry) (history : List Registering) : Registry :=
  history.foldl (fun registry entry => registry.register entry.path entry.options entry.nickname)
    registry

@[simp] theorem base_afterAll (registry : Registry) (history : List Registering) :
    (registry.afterAll history).base = registry.base := by
  induction history generalizing registry with
  | nil => rfl
  | cons entry rest inductionHypothesis => exact inductionHypothesis _

/-- Under a path stand the options registered last for it, or what was there before. -/
theorem find?_afterAll (registry : Registry) (history : List Registering) (path : String) :
    (registry.afterAll history).find? path =
      ((history.findRev? fun entry => Path.absolute registry.base entry.path = path).map
        fun entry => ⟨path, entry.options⟩).or (registry.find? path) := by
  induction history generalizing registry with
  | nil => rfl
  | cons entry rest inductionHypothesis =>
      have later := inductionHypothesis (registry.register entry.path entry.options entry.nickname)
      rw [base_register] at later
      rw [afterAll, List.foldl_cons, ← afterAll, later, find?_register, findRev?_cons]
      cases rest.findRev? fun entry => Path.absolute registry.base entry.path = path with
      | some _ => rfl
      | none =>
          by_cases same : Path.absolute registry.base entry.path = path <;>
            simp [absolute, same]

theorem redirect_afterAll (registry : Registry) (history : List Registering) (name : String) :
    (registry.afterAll history).redirect name =
      ((Registering.latestNamed? history name).elim (registry.redirect name)
        fun entry => Path.absolute registry.base entry.path) := by
  induction history generalizing registry with
  | nil => rfl
  | cons entry rest inductionHypothesis =>
      have later := inductionHypothesis (registry.register entry.path entry.options entry.nickname)
      simp only [Registering.latestNamed?, base_register] at later
      rw [afterAll, List.foldl_cons, ← afterAll, later, redirect_register,
        Registering.latestNamed?, findRev?_cons]
      cases rest.findRev? fun entry => entry.nickname = some name with
      | some _ => rfl
      | none => by_cases named : entry.nickname = some name <;> simp [absolute, named]

/-- Options are stored under absolute paths only. -/
def IsCanonical (registry : Registry) : Prop :=
  ∀ path, (registry.find? path).isSome → registry.absolute path = path

/-- The path as spelled leads to nothing, or to what its absolute form leads to. -/
theorem IsCanonical.find?_eq
    {registry : Registry}
    (canonical : registry.IsCanonical)
    (path : String) :
    registry.find? path = none ∨
      registry.find? path = registry.find? (registry.absolute path) := by
  cases found : registry.find? path with
  | none => exact .inl rfl
  | some registration =>
      rw [canonical path (by rw [found]; rfl), found]
      exact .inr rfl

theorem IsCanonical.lookup
    {registry : Registry}
    (canonical : registry.IsCanonical)
    {path : String}
    (nonempty : path ≠ "") :
    registry.lookup path = .ok (registry.find? (registry.absolute path)) := by
  have spelled : path.isEmpty = false := by simpa using nonempty
  rw [Registry.lookup, spelled]
  rcases canonical.find?_eq path with absent | same
  · rw [absent]
    rfl
  · rw [← same]
    cases registry.find? path <;> rfl

/-- A registry that holds nothing but what was registered, and tells a loader of it or nobody. -/
def recording (base : String) (forwarded : Option (List Registration))
    (history : List Registering) : Registry :=
  { Registry.empty base with forwarded }.afterAll history

variable
  {base : String} {forwarded : Option (List Registration)} {history : List Registering}

@[simp] theorem base_recording :
    (recording base forwarded history).base = base :=
  base_afterAll _ history

theorem find?_recording (path : String) :
    (recording base forwarded history).find? path =
      (history.findRev? fun entry => Path.absolute base entry.path = path).map
        fun entry => ⟨path, entry.options⟩ :=
  (find?_afterAll _ history path).trans (Option.or_none)

theorem redirect_recording (name : String) :
    (recording base forwarded history).redirect name =
      Registering.pathOf base history name :=
  redirect_afterAll _ history name

theorem isCanonical_recording :
    (recording base forwarded history).IsCanonical := by
  intro path there
  rw [find?_recording, Option.isSome_map] at there
  obtain ⟨entry, found⟩ := Option.isSome_iff_exists.mp there
  rw [List.findRev?_eq_find?_reverse] at found
  have stored : Path.absolute base entry.path = path := by simpa using List.find?_some found
  rw [absolute, base_recording, ← stored, Path.absolute_absolute]

/-- A look-up finds the options registered last for the same path. -/
theorem lookup_recording {path : String} (nonempty : path ≠ "") :
    (recording base forwarded history).lookup path =
      .ok ((Registering.latest? base history path).map fun entry =>
        ⟨Path.absolute base path, entry.options⟩) := by
  rw [isCanonical_recording.lookup nonempty, absolute, base_recording, find?_recording,
    Registering.latest?]

/--
A look-up of a path finds the options of the last registration with the same
absolute form, whether the path is looked up as spelled or in its absolute form.
A name leads to the absolute path it was made a nickname of last, and what is
found there are the options registered last for that path, with or without the
nickname.
-/
theorem lookup_latest
    (base : String)
    (forwarded : Option (List Registration))
    (history : List Registering) :
    let registry := Registry.recording base forwarded history
    (∀ path, path ≠ "" →
      registry.lookup path =
        .ok ((Registering.latest? base history path).map fun entry =>
          ⟨Path.absolute base path, entry.options⟩)) ∧
      (∀ path,
        registry.find? path = none ∨
          registry.find? path = registry.find? (registry.absolute path)) ∧
      (∀ name, registry.redirect name = Registering.pathOf base history name) ∧
      ∀ name entry, Registering.latestNamed? history name = some entry →
        ∃ newest, Registering.latest? base history entry.path = some newest ∧
          registry.lookup (registry.redirect name) =
            .ok (some ⟨Path.absolute base entry.path, newest.options⟩) := by
  refine ⟨fun path => lookup_recording, isCanonical_recording.find?_eq, redirect_recording, ?_⟩
  intro name entry named
  have target : Registering.pathOf base history name = Path.absolute base entry.path := by
    rw [Registering.pathOf, named, Option.elim_some]
  have spelled :
      Path.absolute base (Path.absolute base entry.path) = Path.absolute base entry.path :=
    Path.absolute_absolute base base entry.path
  have member : entry ∈ history := by
    rw [Registering.latestNamed?, List.findRev?_eq_find?_reverse] at named
    exact List.mem_reverse.mp (List.mem_of_find?_eq_some named)
  obtain ⟨newest, found⟩ :
      ∃ newest, Registering.latest? base history entry.path = some newest := by
    rw [Registering.latest?, List.findRev?_eq_find?_reverse]
    refine Option.isSome_iff_exists.mp (List.find?_isSome.mpr ?_)
    exact ⟨entry, List.mem_reverse.mpr member, by simp⟩
  refine ⟨newest, found, ?_⟩
  rw [redirect_recording, target, lookup_recording (Path.absolute_ne_empty base entry.path),
    Registering.latest?_congr spelled, found, spelled, Option.map_some]

/-- A path was given a nickname and then, in another spelling, other options without it. -/
theorem lookup_latest_renewed :
    let history : List Registering :=
      [⟨"ui/map", .int 1, some "map"⟩, ⟨"/chart", .null, none⟩, ⟨"./ui//x/../map", .int 2, none⟩]
    let registry := Registry.recording "https://host/js/" (some []) history
    registry.lookup (registry.redirect "map") =
        .ok (some ⟨"https://host/js/ui/map", .int 2⟩) ∧
      registry.lookup "map" = .ok none := by
  intro history registry
  have named : Registering.latestNamed? history "map" = some ⟨"ui/map", .int 1, some "map"⟩ := by
    rfl
  have renewed : Registering.latest? "https://host/js/" history "ui/map" =
      some ⟨"./ui//x/../map", .int 2, none⟩ := by
    rfl
  have unknown : Registering.latest? "https://host/js/" history "map" = none := by
    rfl
  have spelled : Path.absolute "https://host/js/" "ui/map" = "https://host/js/ui/map" := by
    rfl
  obtain ⟨lookup, _, _, follows⟩ := lookup_latest "https://host/js/" (some []) history
  obtain ⟨newest, found, result⟩ := follows "map" _ named
  obtain rfl := Option.some.inj (renewed.symm.trans found)
  have missing := lookup "map" (by decide)
  rw [unknown] at missing
  exact ⟨spelled ▸ result, missing⟩

end Registry

end Hydration
