import Mathlib.Data.List.Forall2
import Conform.Arena.Node
import Conform.Proofs.Shape.Names

/-! Data that differ in identities only.  Two arenas number the nodes that
resolution adds in different orders; whatever is made of related identities in
the same way is related again. -/

namespace Conform

variable {ids wider : SchemaId → SchemaId → Prop}

/-- Every entry has its counterpart. -/
theorem exists_counterpart {α β : Type} {related : α → β → Prop} {firsts : List α} {seconds : List β}
    (all : List.Forall₂ related firsts seconds) {first : α} (listed : first ∈ firsts) :
    ∃ second ∈ seconds, related first second := by
  induction all with
  | nil => cases listed
  | cons here _ ih =>
      rcases List.mem_cons.mp listed with rfl | listed
      · exact ⟨_, List.mem_cons_self .., here⟩
      · obtain ⟨second, inside, related⟩ := ih listed
        exact ⟨second, List.mem_cons_of_mem _ inside, related⟩

theorem exists_origin {α β : Type} {related : α → β → Prop} {firsts : List α} {seconds : List β}
    (all : List.Forall₂ related firsts seconds) {second : β} (listed : second ∈ seconds) :
    ∃ first ∈ firsts, related first second :=
  exists_counterpart all.flip listed

theorem imp_of_mem {α β : Type} {related other : α → β → Prop} {firsts : List α} {seconds : List β}
    (all : List.Forall₂ related firsts seconds)
    (into : ∀ first second, first ∈ firsts → second ∈ seconds → related first second → other first second) :
    List.Forall₂ other firsts seconds := by
  induction all with
  | nil => exact .nil
  | cons here _ ih =>
      exact .cons (into _ _ (List.mem_cons_self ..) (List.mem_cons_self ..) here)
        (ih fun first second listed listed' =>
          into first second (List.mem_cons_of_mem _ listed) (List.mem_cons_of_mem _ listed'))

namespace Shape

theorem rel_cases {α β : Type} {related : α → β → Prop} {first : Option α} {second : Option β}
    (rel : Option.Rel related first second) : (first = none ∧ second = none) ∨
      ∃ here there, first = some here ∧ second = some there ∧ related here there := by
  cases rel with
  | none => exact .inl ⟨rfl, rfl⟩
  | some here => exact .inr ⟨_, _, rfl, rfl, here⟩

theorem rel_imp {α β : Type} {related wider : α → β → Prop} {first : Option α} {second : Option β}
    (into : ∀ here there, related here there → wider here there) (rel : Option.Rel related first second) :
    Option.Rel wider first second := by
  cases rel with
  | none => exact .none
  | some here => exact .some (into _ _ here)

theorem rel_isSome {α β : Type} {related : α → β → Prop} {first : Option α} {second : Option β}
    (rel : Option.Rel related first second) : first.isSome = second.isSome := by
  cases rel <;> rfl

theorem rel_or {α β : Type} {related : α → β → Prop} {first third : Option α}
    {second fourth : Option β} (rel : Option.Rel related first second)
    (last : Option.Rel related third fourth) :
    Option.Rel related (first.or third) (second.or fourth) := by
  cases rel with
  | some here => exact .some here
  | none => exact last

end Shape

structure Property.Related (ids : SchemaId → SchemaId → Prop) (property other : Property) : Prop where
  name : property.name = other.name
  optional : property.optional = other.optional
  type : ids property.type other.type

structure IndexSignature.Related (ids : SchemaId → SchemaId → Prop)
    (signature other : IndexSignature) : Prop where
  keyType : signature.keyType = other.keyType
  type : ids signature.type other.type

structure Shape.Related (ids : SchemaId → SchemaId → Prop) (shape other : Shape) : Prop where
  properties : List.Forall₂ (Property.Related ids) shape.properties other.properties
  index : Option.Rel (IndexSignature.Related ids) shape.index other.index

inductive Combinator.Related (ids : SchemaId → SchemaId → Prop) : Combinator → Combinator → Prop
  | pick (keys : List String) : Related ids (.pick keys) (.pick keys)
  | optional : Related ids .optional .optional
  | without (keys : List String) : Related ids (.without keys) (.without keys)
  | overwrite {patch other : SchemaId} (patches : ids patch other) :
      Related ids (.overwrite patch) (.overwrite other)

/-- A node without identities. -/
def Node.IsPlain : Node → Prop
  | .boolean | .string | .any | .nonPrimitive | .number _ | .literal _ | .enumeration _
  | .buffer _ | .reference _ => True
  | _ => False

inductive Node.Related (ids : SchemaId → SchemaId → Prop) : Node → Node → Prop
  | plain {node : Node} (plain : node.IsPlain) : Related ids node node
  | array {element other : SchemaId} (elements : ids element other) :
      Related ids (.array element) (.array other)
  | tuple {elements others : List SchemaId} (related : List.Forall₂ ids elements others)
      (optionalStart : Option Nat) :
      Related ids (.tuple elements optionalStart) (.tuple others optionalStart)
  | interface {properties others : List Property} {index otherIndex : Option IndexSignature}
      {parents otherParents : List SchemaId}
      (declared : List.Forall₂ (Property.Related ids) properties others)
      (signed : Option.Rel (IndexSignature.Related ids) index otherIndex)
      (inherited : List.Forall₂ ids parents otherParents) :
      Related ids (.interface properties index parents) (.interface others otherIndex otherParents)
  | indexedAccess {object other : SchemaId} (objects : ids object other) (index : String) :
      Related ids (.indexedAccess object index) (.indexedAccess other index)
  | union {members others : List SchemaId} (related : List.Forall₂ ids members others) :
      Related ids (.union members) (.union others)
  | intersection {members others : List SchemaId} (related : List.Forall₂ ids members others) :
      Related ids (.intersection members) (.intersection others)
  | mapped {combinator otherCombinator : Combinator} {target other : SchemaId}
      (combinators : Combinator.Related ids combinator otherCombinator) (targets : ids target other) :
      Related ids (.mapped combinator target) (.mapped otherCombinator other)

theorem Property.Related.imp (into : ∀ id other, ids id other → wider id other)
    {property other : Property} (related : Property.Related ids property other) :
    Property.Related wider property other :=
  ⟨related.name, related.optional, into _ _ related.type⟩

theorem IndexSignature.Related.imp (into : ∀ id other, ids id other → wider id other)
    {signature other : IndexSignature} (related : IndexSignature.Related ids signature other) :
    IndexSignature.Related wider signature other :=
  ⟨related.keyType, into _ _ related.type⟩

theorem IndexSignature.Related.rel_imp (into : ∀ id other, ids id other → wider id other)
    {index other : Option IndexSignature} (related : Option.Rel (IndexSignature.Related ids) index other) :
    Option.Rel (IndexSignature.Related wider) index other :=
  Shape.rel_imp (fun _ _ => IndexSignature.Related.imp into) related

theorem Shape.Related.imp (into : ∀ id other, ids id other → wider id other) {shape other : Shape}
    (related : Shape.Related ids shape other) : Shape.Related wider shape other :=
  ⟨related.properties.imp fun _ _ => Property.Related.imp into,
    IndexSignature.Related.rel_imp into related.index⟩

theorem Shape.Related.imp_of_mem {shape other : Shape}
    (into : ∀ id twin, id ∈ shape.types → twin ∈ other.types → ids id twin → wider id twin)
    (related : Shape.Related ids shape other) : Shape.Related wider shape other := by
  refine ⟨Conform.imp_of_mem related.properties fun property twin listed listed' here => ?_, ?_⟩
  · exact ⟨here.name, here.optional, into _ _ (Shape.mem_types.mpr (.inl ⟨property, listed, rfl⟩))
      (Shape.mem_types.mpr (.inl ⟨twin, listed', rfl⟩)) here.type⟩
  · rcases Shape.rel_cases related.index with ⟨none, none'⟩ | ⟨signature, twin, some, some', same⟩
    · rw [none, none']
      exact .none
    · rw [some, some']
      exact .some ⟨same.keyType,
        into _ _ (Shape.type_mem_of_index some) (Shape.type_mem_of_index some') same.type⟩

theorem Property.Related.eq_of {properties others : List Property}
    (related : List.Forall₂ (Property.Related ids) properties others)
    (own : ∀ property ∈ properties, ∀ twin, ids property.type twin → twin = property.type) :
    others = properties := by
  induction related with
  | nil => rfl
  | @cons property other rest more here _ ih =>
      have same : other = property := by
        have type := own property (by simp) other.type here.type
        cases property
        cases other
        simpa using ⟨here.name.symm, here.optional.symm, type⟩
      rw [same, ih fun property listed => own property (by simp [listed])]

/-- Related shapes are the same where no type has another counterpart than itself. -/
theorem Shape.Related.eq_of {shape other : Shape} (related : Shape.Related ids shape other)
    (own : ∀ type ∈ shape.types, ∀ twin, ids type twin → twin = type) : other = shape := by
  obtain ⟨properties, index⟩ := shape
  obtain ⟨others, otherIndex⟩ := other
  have listed : others = properties := Property.Related.eq_of related.properties fun property member =>
    own _ (Shape.mem_types.mpr (.inl ⟨property, member, rfl⟩))
  have signed : otherIndex = index := by
    rcases Shape.rel_cases related.index with ⟨none, none'⟩ | ⟨signature, twin, some, some', same⟩
    · simp_all
    · have type := own _ (Shape.type_mem_of_index some) _ same.type
      simp only at some some'
      rw [some, some', Option.some.injEq]
      cases signature
      cases twin
      simpa using ⟨same.keyType.symm, type⟩
  rw [listed, signed]

theorem Shape.Related.refl {ids : SchemaId → SchemaId → Prop} {shape : Shape}
    (same : ∀ type ∈ shape.types, ids type type) : Shape.Related ids shape shape := by
  refine ⟨List.forall₂_same.mpr fun property listed => ⟨rfl, rfl, same _ ?_⟩, ?_⟩
  · exact List.mem_append_left _ (List.mem_map_of_mem listed)
  · cases signed : shape.index with
    | none => exact .none
    | some signature => exact .some ⟨rfl, same _ (List.mem_append_right _ (by simp [signed]))⟩

theorem Combinator.Related.imp (into : ∀ id other, ids id other → wider id other)
    {combinator other : Combinator} (related : Combinator.Related ids combinator other) :
    Combinator.Related wider combinator other := by
  cases related with
  | pick keys => exact .pick keys
  | optional => exact .optional
  | without keys => exact .without keys
  | overwrite patches => exact .overwrite (into _ _ patches)

theorem Node.Related.imp (into : ∀ id other, ids id other → wider id other) {node other : Node}
    (related : Node.Related ids node other) : Node.Related wider node other := by
  cases related with
  | plain plain => exact .plain plain
  | array elements => exact .array (into _ _ elements)
  | tuple elements start => exact .tuple (elements.imp into) start
  | interface declared signed inherited =>
      exact .interface (declared.imp fun _ _ => Property.Related.imp into)
        (IndexSignature.Related.rel_imp into signed) (inherited.imp into)
  | indexedAccess objects index => exact .indexedAccess (into _ _ objects) index
  | union members => exact .union (members.imp into)
  | intersection members => exact .intersection (members.imp into)
  | mapped combinators targets => exact .mapped (combinators.imp into) (into _ _ targets)

theorem Property.Related.swap {property other : Property} (related : Property.Related ids property other) :
    Property.Related (flip ids) other property :=
  ⟨related.name.symm, related.optional.symm, related.type⟩

theorem IndexSignature.Related.rel_swap {index other : Option IndexSignature}
    (related : Option.Rel (IndexSignature.Related ids) index other) :
    Option.Rel (IndexSignature.Related (flip ids)) other index := by
  cases related with
  | some signed => exact .some ⟨signed.keyType.symm, signed.type⟩
  | none => exact .none

theorem Combinator.Related.swap {combinator other : Combinator}
    (related : Combinator.Related ids combinator other) : Combinator.Related (flip ids) other combinator := by
  cases related with
  | pick keys => exact .pick keys
  | optional => exact .optional
  | without keys => exact .without keys
  | overwrite patches => exact .overwrite patches

theorem Node.Related.swap {node other : Node} (related : Node.Related ids node other) :
    Node.Related (flip ids) other node := by
  cases related with
  | plain plain => exact .plain plain
  | array elements => exact .array elements
  | tuple elements start => exact .tuple elements.flip start
  | interface declared signed inherited =>
      exact .interface (declared.flip.imp fun _ _ => Property.Related.swap)
        (IndexSignature.Related.rel_swap signed) inherited.flip
  | indexedAccess objects index =>
      refine .indexedAccess ?_ index
      exact objects
  | union members => exact .union members.flip
  | intersection members => exact .intersection members.flip
  | mapped combinators targets => exact .mapped combinators.swap targets

theorem Combinator.Related.kind {combinator other : Combinator}
    (related : Combinator.Related ids combinator other) : combinator.kind = other.kind := by
  cases related <;> rfl

namespace Node.Related

variable {node other : Node}

theorem kind (related : Node.Related ids node other) : node.kind = other.kind := by
  cases related with
  | mapped combinators _ => exact combinators.kind
  | _ => rfl

theorem interfaceLike (related : Node.Related ids node other) :
    node.isInterfaceLike = other.isInterfaceLike := by
  cases related <;> rfl

end Node.Related

namespace Shape

variable {properties others added otherAdded : List Property} {property other : Property}
  {shape otherShape parent otherParent : Shape} {keys : List String} {name : String}

theorem findProperty_related (related : List.Forall₂ (Property.Related ids) properties others)
    (name : String) : Option.Rel (Property.Related ids) (findProperty properties name)
      (findProperty others name) := by
  induction related with
  | nil => exact .none
  | @cons first second rest otherRest here _ ih =>
      simp only [findProperty, List.find?_cons, ← here.name] at ih ⊢
      cases first.name == name with
      | true => exact .some here
      | false => exact ih

theorem Related.names_eq (related : Shape.Related ids shape otherShape) :
    shape.names = otherShape.names := by
  obtain ⟨properties, index⟩ := shape
  obtain ⟨others, otherIndex⟩ := otherShape
  have same := related.properties
  simp only [names] at same ⊢
  induction same with
  | nil => rfl
  | @cons first second rest otherRest here rest_related ih =>
      simp only [List.map_cons, here.name, ih ⟨rest_related, related.index⟩]

theorem Related.declares_eq (related : Shape.Related ids shape otherShape) (name : String) :
    shape.declares name = otherShape.declares name :=
  rel_isSome (findProperty_related related.properties name)

theorem Related.keyType_eq (related : Shape.Related ids shape otherShape) :
    shape.index.map (·.keyType) = otherShape.index.map (·.keyType) := by
  rcases rel_cases related.index with ⟨unsigned, unsigned'⟩ | ⟨_, _, signed, signed', here⟩
  · rw [unsigned, unsigned']
  · rw [signed, signed', Option.map_some, Option.map_some, here.keyType]

theorem inheritProperty_related (related : List.Forall₂ (Property.Related ids) properties others)
    (here : Property.Related ids property other) :
    List.Forall₂ (Property.Related ids) (inheritProperty properties property)
      (inheritProperty others other) := by
  have found := rel_isSome (findProperty_related related property.name)
  simp only [inheritProperty, ← here.name, found]
  split
  · exact related
  · exact List.rel_append related (.cons here .nil)

theorem inheritProperties_related (related : List.Forall₂ (Property.Related ids) properties others)
    (more : List.Forall₂ (Property.Related ids) added otherAdded) :
    List.Forall₂ (Property.Related ids) (inheritProperties properties added)
      (inheritProperties others otherAdded) := by
  unfold inheritProperties
  induction more generalizing properties others with
  | nil => exact related
  | cons here _ ih => exact ih (inheritProperty_related related here)

theorem own_related {index otherIndex : Option IndexSignature}
    (declared : List.Forall₂ (Property.Related ids) properties others)
    (signed : Option.Rel (IndexSignature.Related ids) index otherIndex) :
    Shape.Related ids (own properties index) (own others otherIndex) :=
  ⟨inheritProperties_related .nil declared, signed⟩

theorem Related.inherit (related : Shape.Related ids shape otherShape)
    (parents : Shape.Related ids parent otherParent) :
    Shape.Related ids (shape.inherit parent) (otherShape.inherit otherParent) :=
  ⟨inheritProperties_related related.properties parents.properties,
    rel_or related.index parents.index⟩

theorem Related.project? (related : Shape.Related ids shape otherShape) (key : String) :
    Option.Rel (Property.Related ids) (shape.project? key) (otherShape.project? key) := by
  unfold Shape.project? Shape.property?
  rcases rel_cases (findProperty_related related.properties key) with
    ⟨undeclared, undeclared'⟩ | ⟨_, _, declared, declared', here⟩
  · rw [undeclared, undeclared']
    rcases rel_cases related.index with ⟨unsigned, unsigned'⟩ | ⟨signature, other, signed, signed', here⟩
    · rw [unsigned, unsigned']
      exact .none
    · have accepts : signature.accepts key = other.accepts key := by
        simp only [IndexSignature.accepts, here.keyType]
      simp only [signed, signed', accepts]
      split
      · exact .some ⟨rfl, rfl, here.type⟩
      · exact .none
  · rw [declared, declared']
    exact .some here

/-- The same error, or related results. -/
inductive PickRelated (ids : SchemaId → SchemaId → Prop) :
    Except SchemaError Shape → Except SchemaError Shape → Prop
  | ok {shape other : Shape} (related : Shape.Related ids shape other) :
      PickRelated ids (.ok shape) (.ok other)
  | error (error : SchemaError) : PickRelated ids (.error error) (.error error)

theorem pickFrom_related (keys : List String) {picked otherPicked : List Property}
    (related : Shape.Related ids shape otherShape)
    (sofar : List.Forall₂ (Property.Related ids) picked otherPicked) :
    (∃ error, shape.pickFrom picked keys = .error error ∧
        otherShape.pickFrom otherPicked keys = .error error) ∨
      ∃ properties others, shape.pickFrom picked keys = .ok properties ∧
        otherShape.pickFrom otherPicked keys = .ok others ∧
        List.Forall₂ (Property.Related ids) properties others := by
  induction keys generalizing picked otherPicked with
  | nil => exact .inr ⟨picked, otherPicked, rfl, rfl, sofar⟩
  | cons key rest ih =>
      have taken := rel_isSome (findProperty_related sofar key)
      have projected := related.project? key
      unfold pickFrom
      rw [← taken]
      split
      · exact ih sofar
      · rcases rel_cases projected with ⟨none, none'⟩ | ⟨_, _, found, found', here⟩
        · rw [none, none']
          exact .inl ⟨_, rfl, rfl⟩
        · rw [found, found']
          exact ih (List.rel_append sofar (.cons here .nil))

theorem Related.pick (related : Shape.Related ids shape otherShape) (keys : List String) :
    PickRelated ids (shape.pick keys) (otherShape.pick keys) := by
  unfold Shape.pick
  rcases pickFrom_related keys related .nil with
    ⟨error, failed, failed'⟩ | ⟨properties, others, done, done', picked⟩
  · rw [failed, failed']
    exact .error error
  · rw [done, done']
    exact .ok ⟨picked, .none⟩

theorem Related.allOptional (related : Shape.Related ids shape otherShape) :
    Shape.Related ids shape.allOptional otherShape.allOptional := by
  refine ⟨?_, related.index⟩
  refine List.rel_map (fun _ _ here => ?_) related.properties
  exact ⟨here.name, rfl, here.type⟩

theorem Related.without (related : Shape.Related ids shape otherShape) (keys : List String) :
    Shape.Related ids (shape.without keys) (otherShape.without keys) := by
  refine ⟨?_, related.index⟩
  refine List.rel_filter (fun _ _ here => ?_) related.properties
  simp only [here.name]

theorem replaceProperty_related (related : List.Forall₂ (Property.Related ids) properties others)
    (here : Property.Related ids property other) :
    List.Forall₂ (Property.Related ids) (replaceProperty property properties)
      (replaceProperty other others) := by
  induction related with
  | nil => exact .cons here .nil
  | cons first rest ih =>
      simp only [replaceProperty, first.name, here.name]
      split
      · exact .cons here rest
      · exact .cons first ih

theorem Related.overwrite (related : Shape.Related ids shape otherShape)
    (patches : Shape.Related ids parent otherParent) :
    Shape.Related ids (shape.overwrite parent) (otherShape.overwrite otherParent) := by
  refine ⟨?_, rel_or patches.index related.index⟩
  have replaced {top otherTop : List Property}
      (tops : List.Forall₂ (Property.Related ids) top otherTop) :
      ∀ {base otherBase : List Property}, List.Forall₂ (Property.Related ids) base otherBase →
        List.Forall₂ (Property.Related ids)
          (top.foldl (fun properties property => replaceProperty property properties) base)
          (otherTop.foldl (fun properties property => replaceProperty property properties)
            otherBase) := by
    induction tops with
    | nil => exact fun bases => bases
    | cons here _ ih => exact fun bases => ih (replaceProperty_related bases here)
  exact replaced patches.properties related.properties

end Shape

end Conform
