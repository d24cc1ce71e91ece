import Mathlib.Logic.Function.Basic
import TemplateBinding.Document
import TemplateBinding.Proofs.JsonReading

/-!
# The text of a document

Every field of a document is written, and there are no numbers among them.  So documents with the
same text are the same.
-/
namespace TemplateBinding
set_option autoImplicit false

open Function (Injective)

namespace Json

theorem ofOption_injective {α : Type} {encode : α → Json} (h : Injective encode)
    (hNull : ∀ value, encode value ≠ null) : Injective (ofOption encode) := by
  intro first second hSame
  cases first with
  | none =>
    cases second with
    | none => rfl
    | some value => exact absurd hSame.symm (hNull value)
  | some value =>
    cases second with
    | none => exact absurd hSame (hNull value)
    | some other => exact congrArg some (h hSame)

theorem string_injective : Injective string := fun _ _ h => string.inj h

theorem isPlain_ofOption {α : Type} {encode : α → Json}
    (h : ∀ value, (encode value).isPlain = true) (value : Option α) :
    (ofOption encode value).isPlain = true := by
  cases value with
  | none => rfl
  | some value => exact h value

theorem isPlain_strings (texts : List String) : (strings texts).isPlain = true := by
  rw [strings, isPlain]
  induction texts with
  | nil => rfl
  | cons text texts ih => rw [List.map_cons, arePlain, ih, isPlain, Bool.and_true]

end Json

theorem Kind.toJson_injective : Injective Kind.toJson := by
  intro first second h
  have hName := congrArg Kind.named? (Json.string_injective h)
  rw [Kind.named?_name, Kind.named?_name] at hName
  exact Option.some.inj hName

namespace Binding

theorem toJson_injective : Injective toJson := by
  rintro ⟨kind, name, typeReference, comment⟩ ⟨kind', name', typeReference', comment'⟩ h
  simp only [toJson, Json.object.injEq, List.cons.injEq, Prod.mk.injEq, true_and, and_true,
    Json.string.injEq] at h
  obtain ⟨hKind, rfl, rfl, hComment⟩ := h
  obtain rfl := Kind.toJson_injective hKind
  obtain rfl := Json.ofOption_injective Json.string_injective (fun _ => Json.noConfusion) hComment
  rfl

theorem isPlain_toJson (binding : Binding) : binding.toJson.isPlain = true := by
  have hComment : (Json.ofOption .string binding.comment).isPlain = true :=
    Json.isPlain_ofOption (fun _ => rfl) binding.comment
  simp [toJson, Kind.toJson, Json.isPlain, Json.areMembersPlain, hComment]

end Binding

namespace Document

theorem nodeToJson_injective {first second : Record} {children others : List Json}
    (h : nodeToJson first children = nodeToJson second others) :
    first = second ∧ children = others := by
  obtain ⟨label, capabilities, binding, readOnly⟩ := first
  obtain ⟨label', capabilities', binding', readOnly'⟩ := second
  simp only [nodeToJson, Json.object.injEq, List.cons.injEq, Prod.mk.injEq, true_and, and_true,
    Json.string.injEq, Json.bool.injEq, Json.array.injEq, Json.strings] at h
  obtain ⟨rfl, hCapabilities, hBinding, rfl, rfl⟩ := h
  obtain rfl := (List.map_inj_right fun _ _ hText => Json.string_injective hText).mp hCapabilities
  obtain rfl := Json.ofOption_injective Binding.toJson_injective (fun _ => Json.noConfusion) hBinding
  exact ⟨rfl, rfl⟩

theorem forestToJson_injective : Injective forestToJson := by
  intro first second h
  induction first generalizing second with
  | nil =>
    cases second with
    | nil => rfl
    | cons record below rest => cases h
  | cons record below rest hBelow hRest =>
    cases second with
    | nil => cases h
    | cons other otherBelow otherRest =>
      obtain ⟨hNode, hLater⟩ := List.cons.inj h
      obtain ⟨rfl, hInside⟩ := nodeToJson_injective hNode
      rw [hBelow hInside, hRest hLater]

theorem toJson_injective : Injective toJson := by
  rintro ⟨root, children⟩ ⟨otherRoot, otherChildren⟩ h
  obtain ⟨hRoot, hChildren⟩ := nodeToJson_injective h
  exact congrArg₂ Tree.mk hRoot (forestToJson_injective hChildren)

theorem isPlain_nodeToJson (record : Record) {children : List Json}
    (h : Json.arePlain children = true) : (nodeToJson record children).isPlain = true := by
  have hCapabilities := Json.isPlain_strings record.capabilities
  have hBinding := Json.isPlain_ofOption Binding.isPlain_toJson record.binding
  simp [nodeToJson, Json.isPlain, Json.areMembersPlain, h, hCapabilities, hBinding]

theorem arePlain_forestToJson (forest : Forest Record) :
    Json.arePlain (forestToJson forest) = true := by
  induction forest with
  | nil => rfl
  | cons record below rest hBelow hRest =>
    rw [forestToJson, Json.arePlain, isPlain_nodeToJson record hBelow, hRest, Bool.and_true]

theorem isPlain_toJson (document : Document) : document.toJson.isPlain = true :=
  isPlain_nodeToJson document.root (arePlain_forestToJson document.children)

theorem read?_print (document : Document) : Json.read? document.print = some document.toJson :=
  Json.read?_pretty (isPlain_toJson document)

/-- No two documents have the same text. -/
theorem print_injective : Injective print := by
  intro first second h
  have hRead := read?_print first
  rw [h, read?_print second] at hRead
  exact toJson_injective (Option.some.inj hRead).symm

end Document

end TemplateBinding
