import Mathlib.Data.List.TakeWhile
import ProviderProtocol.Diagnostic
/-!
# Diagnostics over the wire

A diagnostic that is sent and read back has lost what the wire has no words for: a detail without text, the part of a
path from its first set element on, and a path with nothing before that.  `normalized` is the diagnostic without these,
and it is exactly what comes back (`ofWire_toWire`); so the diagnostics that come back as they were sent are the
`Portable` ones.

Whatever is read from the wire is portable, whoever wrote it (`portable_ofWire`): it survives every further journey.
-/
namespace ProviderProtocol

/-! ## Paths -/

/-- An element of a set, which the wire has no selector for. -/
def Step.isElement : Step → Bool
  | .element _ => true
  | _          => false

namespace Path

def SetFree (p : Path) : Prop := ∀ s ∈ p, s.isElement = false

/-- The steps before the first set element; they lead to the set. -/
def outsideSets (p : Path) : Path := p.takeWhile (!·.isElement)

theorem outsideSets_of_setFree {p : Path} (h : p.SetFree) : p.outsideSets = p :=
  List.takeWhile_eq_self_iff.2 fun s hs => by simp [h s hs]

theorem outsideSets_append_element {before : Path} (h : before.SetFree) (v : Value) (after : Path) :
    outsideSets (before ++ .element v :: after) = before := by
  have hbefore : ∀ s ∈ before, (!s.isElement) = true := fun s hs => by simp [h s hs]
  rw [outsideSets, List.takeWhile_append_of_pos hbefore, List.takeWhile_cons_of_neg (by simp [Step.isElement]),
    List.append_nil]

/-! ### Steps and selectors -/

theorem isElement_of_selector?_eq_none : ∀ {s : Step}, selector? s = none → s.isElement = true
  | .element _, _ => rfl

theorem step_of_selector? : ∀ {s : Step} {sel : Selector}, selector? s = some sel → sel.step = s
  | .attribute _, _, rfl => rfl
  | .key _, _, rfl       => rfl
  | .index _, _, rfl     => rfl

theorem isElement_step (sel : Selector) : sel.step.isElement = false := by
  cases sel <;> rfl

theorem setFree_ofWire : ∀ w : Wire, (ofWire w).SetFree
  | []            => List.forall_mem_nil _
  | none :: w     => setFree_ofWire w
  | some sel :: w => List.forall_mem_cons.2 ⟨isElement_step sel, setFree_ofWire w⟩

/-- **A path is cut before its first set element**, and nothing else happens to it. -/
theorem ofWire_toWire (p : Path) : ofWire p.toWire = p.outsideSets := by
  induction p with
  | nil => rfl
  | cons s p ih =>
    rw [toWire, outsideSets]
    cases hs : selector? s with
    | none     => simp [ofWire, isElement_of_selector?_eq_none hs]
    | some sel =>
      have hkept : s.isElement = false := step_of_selector? hs ▸ isElement_step sel
      simp only [ofWire, ih, step_of_selector? hs, List.takeWhile_cons, hkept, Bool.not_false, if_true, outsideSets]

theorem ofWire_toWire_eq_self_iff {p : Path} : ofWire p.toWire = p ↔ p.SetFree := by
  constructor
  · intro h
    rw [← h]
    exact setFree_ofWire p.toWire
  · intro h
    rw [ofWire_toWire, outsideSets_of_setFree h]

end Path

/-! ## Diagnostics -/

attribute [ext] Diagnostic

namespace Diagnostic

/-- What is left of a diagnostic on the wire. -/
def normalized (d : Diagnostic) : Diagnostic :=
  { d with
    detail := d.detail.filter (· ≠ "")
    path := (d.path.map Path.outsideSets).filter (!·.isEmpty) }

/-- The detail, if there is one, has a text, and the path, if there is one, leads somewhere without entering a set. -/
structure Portable (d : Diagnostic) : Prop where
  detail : ∀ text, d.detail = some text → text ≠ ""
  path : ∀ p, d.path = some p → p ≠ [] ∧ p.SetFree

theorem ofWire_toWire (d : Diagnostic) : ofWire d.toWire = d.normalized := by
  obtain ⟨severity, summary, detail, path⟩ := d
  apply Diagnostic.ext
  · cases severity <;> rfl
  · rfl
  · cases detail with
    | none   => rfl
    | some t => by_cases ht : t = "" <;> simp [ofWire, toWire, normalized, Option.filter_some, ht]
  · simp [ofWire, toWire, normalized, Function.comp_def, Path.ofWire_toWire]

theorem portable_ofWire (w : WireDiagnostic) : (ofWire w).Portable := by
  refine ⟨fun t ht => ?_, fun p hp => ?_⟩
  · rintro rfl
    by_cases hempty : w.detail = "" <;> simp [ofWire, hempty] at ht
  · obtain ⟨hread, hne⟩ := Option.filter_eq_some_iff.1 hp
    obtain ⟨sent, -, rfl⟩ := Option.map_eq_some_iff.1 hread
    exact ⟨by simpa using hne, Path.setFree_ofWire sent⟩

theorem normalized_of_portable {d : Diagnostic} (h : d.Portable) : d.normalized = d := by
  obtain ⟨severity, summary, detail, path⟩ := d
  obtain ⟨hdetail, hpath⟩ := h
  apply Diagnostic.ext
  · rfl
  · rfl
  · cases detail with
    | none   => rfl
    | some t => simp [normalized, Option.filter_some, hdetail t rfl]
  · cases path with
    | none   => rfl
    | some p =>
      obtain ⟨hne, hfree⟩ := hpath p rfl
      simp [normalized, Option.filter_some, Path.outsideSets_of_setFree hfree, hne]

theorem ofWire_toWire_eq_self_iff {d : Diagnostic} : ofWire d.toWire = d ↔ d.Portable := by
  constructor
  · intro h
    rw [← h]
    exact portable_ofWire d.toWire
  · intro h
    rw [ofWire_toWire, normalized_of_portable h]

theorem path_ofWire_toWire {d : Diagnostic} {p : Path} (hd : d.path = some p) (hne : p ≠ []) (hp : p.SetFree) :
    (ofWire d.toWire).path = some p := by
  rw [ofWire_toWire]
  simp [normalized, Option.filter_some, hd, Path.outsideSets_of_setFree hp, hne]

theorem hasErrors_normalized (ds : List Diagnostic) : hasErrors (ds.map normalized) = hasErrors ds := by
  rw [hasErrors, List.any_map]
  rfl

/-- **Diagnostics survive the wire up to what it has no words for.**  Each comes back in its place and normalized; it is
an error if it was one, and it comes back as it was sent if it is portable.  A path, by itself or in a diagnostic, comes
back up to its first set element.  Diagnostics that were read from any wire form are sent and read again unchanged. -/
theorem diagnostics_survive_the_wire :
    (∀ ds : List Diagnostic, (ds.map toWire).map ofWire = ds.map normalized) ∧
    (∀ ds : List Diagnostic, hasErrors ((ds.map toWire).map ofWire) = hasErrors ds) ∧
    (∀ ds : List Diagnostic, (ds.map toWire).map ofWire = ds ↔ ∀ d ∈ ds, d.Portable) ∧
    (∀ (d : Diagnostic) (p : Path), d.path = some p → p ≠ [] → p.SetFree → (ofWire d.toWire).path = some p) ∧
    (∀ p : Path, Path.ofWire p.toWire = p ↔ p.SetFree) ∧
    (∀ (before after : Path) (v : Value), before.SetFree →
      Path.ofWire (Path.toWire (before ++ .element v :: after)) = before) ∧
    ∀ ws : List WireDiagnostic, ((ws.map ofWire).map toWire).map ofWire = ws.map ofWire := by
  have hback : ∀ ds : List Diagnostic, (ds.map toWire).map ofWire = ds.map normalized := fun ds => by
    rw [List.map_map]
    exact List.map_congr_left fun d _ => ofWire_toWire d
  have hself : ∀ ds : List Diagnostic, (ds.map toWire).map ofWire = ds ↔ ∀ d ∈ ds, d.Portable := fun ds => by
    have hmap : ds.map (ofWire ∘ toWire) = ds.map id ↔ ∀ d ∈ ds, ofWire d.toWire = d := List.map_inj_left
    rw [List.map_id] at hmap
    rw [List.map_map, hmap]
    exact forall₂_congr fun d _ => ofWire_toWire_eq_self_iff
  refine ⟨hback, fun ds => ?_, hself, fun d p => path_ofWire_toWire, fun p => Path.ofWire_toWire_eq_self_iff,
    fun before after v hbefore => ?_, fun ws => ?_⟩
  · rw [hback, hasErrors_normalized]
  · rw [Path.ofWire_toWire, Path.outsideSets_append_element hbefore]
  · refine (hself _).2 fun d hd => ?_
    obtain ⟨w, -, rfl⟩ := List.mem_map.1 hd
    exact portable_ofWire w

/-! ### Ports

The first report is about a port, an element of a set, and its detail is empty; the second one is about the whole. -/

def portsPath : Path := [.attribute "rule", .index 0, .attribute "ports"]

def portSet : Value := .known (.set .number) (.list [])

def portReports : List Diagnostic :=
  [⟨.warning, "Port is in use", some "", some (portsPath ++ [.element portSet, .attribute "protocol"])⟩,
    ⟨.error, "No port is left", some "All are taken", some []⟩]

theorem diagnostics_survive_the_wire_ports :
    (portReports.map toWire).map ofWire =
        [⟨.warning, "Port is in use", none, some portsPath⟩, ⟨.error, "No port is left", some "All are taken", none⟩] ∧
      hasErrors ((portReports.map toWire).map ofWire) = true ∧
      (portsPath ≠ [] ∧ portsPath.SetFree) ∧
      (ofWire (toWire ⟨.error, "", some "", some portsPath⟩)).path = some portsPath ∧
      Path.ofWire portsPath.toWire = portsPath ∧
      Path.ofWire (Path.toWire (portsPath ++ .element portSet :: [])) = portsPath := by
  obtain ⟨back, errors, -, kept, path, cut, -⟩ := diagnostics_survive_the_wire
  have hfree : portsPath.SetFree := by simp [Path.SetFree, portsPath, Step.isElement]
  have hne : portsPath ≠ [] := by simp [portsPath]
  exact ⟨(back portReports).trans rfl, (errors portReports).trans rfl, ⟨hne, hfree⟩, kept _ portsPath rfl hne hfree,
    (path portsPath).2 hfree, cut portsPath [] portSet hfree⟩

end Diagnostic
end ProviderProtocol
