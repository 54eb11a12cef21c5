import Mathlib.Data.List.Pairwise
import LocalNet.Proofs.Json.Uniform

/-!
# Members in any order

Where the fields of a record change different parts of it, two members may change places. What an
object comes to then depends on its members but not on their order, and members that are passed over
or that store what a blank record holds already make no difference.
-/

namespace LocalNet.Json

variable {ρ : Type}

theorem rel_bind {α β : Type} {related : α → α → Prop} {outcome : β → β → Prop}
    {left right : Option α} {next other : α → Option β} (first : Option.Rel related left right)
    (goesOn : ∀ one two, related one two → Option.Rel outcome (next one) (other two)) :
    Option.Rel outcome (left.bind next) (right.bind other) := by
  cases first with
  | some same => exact goesOn _ _ same
  | none => exact Option.Rel.none

/-- A change that the field can make of a document. -/
def Field.Makes (field : Field ρ) (change : ρ → ρ) : Prop :=
  ∃ depth doc, meaning (field.store.read depth) doc = some change

theorem makes_of_map {α : Type} {name : String} {byName byPlace : Bool} {decoder : Decoder α}
    {set : α → ρ → ρ} {change : ρ → ρ}
    (makes : Field.Makes ⟨name, byName, byPlace, decoder.map set⟩ change) :
    ∃ value, change = set value := by
  obtain ⟨depth, doc, made⟩ := makes
  rw [Decoder.map_reads, Option.map_eq_some_iff] at made
  obtain ⟨value, -, same⟩ := made
  exact ⟨value, same.symm⟩

/-- Unknown members are passed over, no field is required, and fields do not touch each other. -/
structure Record.Orderless (record : Record ρ) : Prop where
  opened : record.closed = false
  optional : ∀ field ∈ record.fields, field.requiredByName = false
  commute : ∀ first ∈ record.fields, ∀ second ∈ record.fields, first.name ≠ second.name →
    ∀ change other, first.Makes change → second.Makes other →
      ∀ value, change (other value) = other (change value)

def Field.Apart (first second : Field ρ) : Prop :=
  ∀ change other, first.Makes change → second.Makes other →
    ∀ value, change (other value) = other (change value)

instance : Std.Symm (@Field.Apart ρ) where
  symm _ _ apart change other makes alsoMakes value :=
    (apart other change alsoMakes makes value).symm

namespace Record

theorem mapped_apart {α β : Type} {name other : String} {byName byPlace alsoByName alsoByPlace : Bool}
    {decoder : Decoder α} {second : Decoder β} {set : α → ρ → ρ} {put : β → ρ → ρ}
    (commute : ∀ one two value, set one (put two value) = put two (set one value)) :
    Field.Apart ⟨name, byName, byPlace, decoder.map set⟩
      ⟨other, alsoByName, alsoByPlace, second.map put⟩ := by
  intro change next makes alsoMakes value
  obtain ⟨one, rfl⟩ := makes_of_map makes
  obtain ⟨two, rfl⟩ := makes_of_map alsoMakes
  exact commute one two value

theorem defaulted_apart {α β : Type} {name other : String} {decoder : Decoder α}
    {second : Decoder β} {set : α → ρ → ρ} {put : β → ρ → ρ}
    (commute : ∀ one two value, set one (put two value) = put two (set one value)) :
    Field.Apart (defaulted name decoder set) (defaulted other second put) :=
  mapped_apart commute

theorem orderless_of_apart {record : Record ρ} (opened : record.closed = false)
    (optional : ∀ field ∈ record.fields, field.requiredByName = false)
    (apart : record.fields.Pairwise Field.Apart) : record.Orderless where
  opened := opened
  optional := optional
  commute _ listed _ alsoListed names :=
    apart.forall listed alsoListed fun same => names (congrArg Field.name same)

/-- Drafts of one value that tell the same of the watched fields. -/
structure Draft.Alike (watched : String → Prop) (left right : Draft ρ) : Prop where
  value : left.value = right.value
  present : ∀ name, watched name → (name ∈ left.present ↔ name ∈ right.present)

theorem Draft.alike_refl (watched : String → Prop) (draft : Draft ρ) : draft.Alike watched draft :=
  ⟨rfl, fun _ _ => Iff.rfl⟩

variable {record : Record ρ} {depth : Nat}

theorem field_of_name {name : String} {field : Field ρ} (known : record.field? name = some field) :
    field ∈ record.fields ∧ field.name = name :=
  ⟨List.mem_of_find?_eq_some known, by simpa using List.find?_some known⟩

theorem member_at_known {name : String} {field : Field ρ}
    (known : record.field? name = some field) (draft : Draft ρ) (doc : Doc) :
    record.memberAt? depth draft name doc =
      if name ∈ draft.present then none
      else (meaning (field.store.read depth) doc).map fun change => draft.put name change := by
  rw [memberAt?, useOf, known]
  by_cases inside : name ∈ draft.present
  · simp [inside]
  · simp [inside]

theorem member_at_unknown {name : String} (unknown : record.field? name = none)
    (opened : record.closed = false) (draft : Draft ρ) (doc : Doc) :
    record.memberAt? depth draft name doc = if doc.noControls then some draft else none := by
  simp [memberAt?, useOf, unknown, opened]

def act? (record : Record ρ) (depth : Nat) (draft : Draft ρ) (member : Bytes × Doc) :
    Option (Draft ρ) :=
  (textOf? member.1).bind fun name => record.memberAt? depth draft name member.2

theorem walk_members_cons (draft : Draft ρ) (member : Bytes × Doc) (members : List (Bytes × Doc)) :
    walkMembers (record.memberAt? depth) draft (member :: members) =
      (record.act? depth draft member).bind fun changed =>
        walkMembers (record.memberAt? depth) changed members := by
  rw [walkMembers, act?, Option.bind_assoc]

theorem act_alike (orderless : record.Orderless) {watched : String → Prop} {left right : Draft ρ}
    (alike : left.Alike watched right) {member : Bytes × Doc}
    (watches : ∀ name, textOf? member.1 = some name → watched name) :
    Option.Rel (Draft.Alike watched) (record.act? depth left member)
      (record.act? depth right member) := by
  rw [act?, act?]
  cases spelled : textOf? member.1 with
  | none => exact Option.Rel.none
  | some name =>
      rw [Option.bind_some, Option.bind_some]
      cases known : record.field? name with
      | none =>
          rw [member_at_unknown known orderless.opened, member_at_unknown known orderless.opened]
          split
          · exact Option.Rel.some alike
          · exact Option.Rel.none
      | some field =>
          have same := alike.present name (watches name spelled)
          rw [member_at_known known, member_at_known known]
          by_cases inside : name ∈ left.present
          · rw [if_pos inside, if_pos (same.mp inside)]
            exact Option.Rel.none
          · rw [if_neg inside, if_neg (inside ∘ same.mpr)]
            cases meaning (field.store.read depth) member.2 with
            | none => exact Option.Rel.none
            | some change =>
                refine Option.Rel.some ⟨congrArg change alike.value, fun other watch => ?_⟩
                simp [Draft.put, alike.present other watch]

theorem walk_alike (orderless : record.Orderless) {watched : String → Prop}
    {members : List (Bytes × Doc)}
    (watches : ∀ member ∈ members, ∀ name, textOf? member.1 = some name → watched name)
    {left right : Draft ρ} (alike : left.Alike watched right) :
    Option.Rel (Draft.Alike watched) (walkMembers (record.memberAt? depth) left members)
      (walkMembers (record.memberAt? depth) right members) := by
  induction members generalizing left right with
  | nil => exact Option.Rel.some alike
  | cons member members induction =>
      rw [walk_members_cons, walk_members_cons]
      exact rel_bind (act_alike orderless alike (watches member (by simp)))
        fun one two same =>
          induction (fun other inside => watches other (by simp [inside])) same

theorem alike_outcome_refl (outcome : Option (Draft ρ)) :
    Option.Rel (Draft.Alike fun _ => True) outcome outcome := by
  cases outcome with
  | none => exact Option.Rel.none
  | some draft => exact Option.Rel.some (draft.alike_refl _)

/-- A member that is passed over may change places with any other. -/
theorem act_swap_unknown (depth : Nat) (orderless : record.Orderless) {name : String}
    (unknown : record.field? name = none) (draft : Draft ρ) (doc : Doc) (second : Bytes × Doc) :
    (record.memberAt? depth draft name doc).bind (record.act? depth · second) =
      (record.act? depth draft second).bind (record.memberAt? depth · name doc) := by
  simp only [member_at_unknown unknown orderless.opened]
  cases doc.noControls with
  | false => simp
  | true => simp

theorem act_swap_known (orderless : record.Orderless) {name other : String}
    {field second : Field ρ} (known : record.field? name = some field)
    (alsoKnown : record.field? other = some second) (draft : Draft ρ) (doc following : Doc) :
    Option.Rel (Draft.Alike fun _ => True)
      ((record.memberAt? depth draft name doc).bind
        (record.memberAt? depth · other following))
      ((record.memberAt? depth draft other following).bind
        (record.memberAt? depth · name doc)) := by
  simp only [member_at_known known, member_at_known alsoKnown]
  cases made : meaning (field.store.read depth) doc with
  | none => cases meaning (second.store.read depth) following <;> simp
  | some change =>
      cases alsoMade : meaning (second.store.read depth) following with
      | none => simp
      | some next =>
          by_cases same : name = other
          · -- Whichever comes second is refused.
            subst same
            by_cases inside : name ∈ draft.present <;> simp [inside, Draft.put]
          · have apart : other ≠ name := fun equal => same equal.symm
            by_cases inside : name ∈ draft.present
            · by_cases alsoInside : other ∈ draft.present <;>
                simp [inside, alsoInside, Draft.put]
            · by_cases alsoInside : other ∈ draft.present
              · simp [inside, alsoInside, Draft.put]
              · obtain ⟨listed, named⟩ := field_of_name known
                obtain ⟨alsoListed, alsoNamed⟩ := field_of_name alsoKnown
                have swapped := orderless.commute second alsoListed field listed
                  (by rw [named, alsoNamed]; exact apart) next change
                  ⟨depth, following, alsoMade⟩ ⟨depth, doc, made⟩ draft.value
                simp only [inside, alsoInside, Draft.put, same, apart, List.mem_cons, or_self,
                  Option.map_some, Option.bind_some, ↓reduceIte]
                refine Option.Rel.some ⟨swapped, fun watched _ => ?_⟩
                simp only [List.mem_cons]
                exact or_left_comm

theorem act_swap (orderless : record.Orderless) (draft : Draft ρ) (first second : Bytes × Doc) :
    Option.Rel (Draft.Alike fun _ => True)
      ((record.act? depth draft first).bind (record.act? depth · second))
      ((record.act? depth draft second).bind (record.act? depth · first)) := by
  cases spelled : textOf? first.1 with
  | none =>
      have left (draft : Draft ρ) : record.act? depth draft first = none := by simp [act?, spelled]
      simp [left]
  | some name =>
      have left (draft : Draft ρ) :
          record.act? depth draft first = record.memberAt? depth draft name first.2 := by
        simp [act?, spelled]
      simp only [left]
      cases known : record.field? name with
      | none =>
          rw [act_swap_unknown depth orderless known]
          exact alike_outcome_refl _
      | some field =>
          cases alsoSpelled : textOf? second.1 with
          | none => simp [act?, alsoSpelled]
          | some other =>
              simp only [act?, alsoSpelled, Option.bind_some]
              cases alsoKnown : record.field? other with
              | none =>
                  have swapped := act_swap_unknown depth orderless alsoKnown draft
                    second.2 first
                  simp only [left] at swapped
                  rw [swapped]
                  exact alike_outcome_refl _
              | some field => exact act_swap_known orderless known alsoKnown draft _ _

theorem alike_trans {left middle right : Option (Draft ρ)}
    (first : Option.Rel (Draft.Alike fun _ => True) left middle)
    (second : Option.Rel (Draft.Alike fun _ => True) middle right) :
    Option.Rel (Draft.Alike fun _ => True) left right := by
  cases first with
  | none => exact second
  | some same =>
      cases second with
      | some other =>
          exact Option.Rel.some ⟨same.value.trans other.value, fun name watch =>
            (same.present name watch).trans (other.present name watch)⟩

theorem walk_perm (orderless : record.Orderless) {members others : List (Bytes × Doc)}
    (permuted : members.Perm others) (draft : Draft ρ) :
    Option.Rel (Draft.Alike fun _ => True)
      (walkMembers (record.memberAt? depth) draft members)
      (walkMembers (record.memberAt? depth) draft others) := by
  induction permuted generalizing draft with
  | nil => exact alike_outcome_refl _
  | cons member _ induction =>
      rw [walk_members_cons, walk_members_cons]
      refine rel_bind (alike_outcome_refl _) fun one two same => ?_
      exact alike_trans (walk_alike orderless (fun _ _ _ _ => trivial) same) (induction two)
  | swap first second members =>
      simp only [walk_members_cons, ← Option.bind_assoc]
      exact rel_bind (act_swap orderless draft second first) fun one two same =>
        walk_alike orderless (fun _ _ _ _ => trivial) same
  | trans _ _ first second => exact alike_trans (first draft) (second draft)

/-! ## What an object comes to -/

theorem complete_eq (orderless : record.Orderless) (draft : Draft ρ) :
    record.complete draft = .ok draft.value := by
  have none : record.missing? draft = none := by
    rw [missing?, Option.map_eq_none_iff, List.find?_eq_none]
    intro field listed
    simp [orderless.optional field listed]
  rw [Record.complete, none]

theorem object_at_eq (orderless : record.Orderless) (members : List (Bytes × Doc)) :
    record.objectAt? depth members =
      (walkMembers (record.memberAt? depth) record.start members).map Draft.value := by
  rw [objectAt?]
  cases walkMembers (record.memberAt? depth) record.start members with
  | none => rfl
  | some draft => simp [complete_eq orderless, Except.toOption]

theorem value_of_alike {watched : String → Prop} {left right : Option (Draft ρ)}
    (alike : Option.Rel (Draft.Alike watched) left right) :
    left.map Draft.value = right.map Draft.value := by
  cases alike with
  | none => rfl
  | some same => exact congrArg some same.value

theorem object_perm (orderless : record.Orderless) {members others : List (Bytes × Doc)}
    (permuted : members.Perm others) :
    record.objectAt? depth members = record.objectAt? depth others := by
  rw [object_at_eq orderless, object_at_eq orderless]
  exact value_of_alike (walk_perm orderless permuted _)

theorem object_pass_over (orderless : record.Orderless) {key : Bytes} {name : String} {doc : Doc}
    (spelled : textOf? key = some name) (unknown : record.field? name = none)
    (clean : doc.noControls = true) (members : List (Bytes × Doc)) :
    record.objectAt? depth ((key, doc) :: members) = record.objectAt? depth members := by
  have passed : record.act? depth record.start (key, doc) = some record.start := by
    simp [act?, spelled, member_at_unknown unknown orderless.opened, clean]
  rw [object_at_eq orderless, object_at_eq orderless, walk_members_cons, passed]
  rfl

theorem object_default (orderless : record.Orderless) {key : Bytes} {name : String} {doc : Doc}
    {field : Field ρ} {change : ρ → ρ} (spelled : textOf? key = some name)
    (known : record.field? name = some field)
    (made : meaning (field.store.read depth) doc = some change)
    (same : change record.blank = record.blank) {members : List (Bytes × Doc)}
    (missing : ∀ member ∈ members, textOf? member.1 ≠ some name) :
    record.objectAt? depth ((key, doc) :: members) = record.objectAt? depth members := by
  have stored : record.act? depth record.start (key, doc) =
      some (record.start.put name change) := by
    simp [act?, spelled, member_at_known known, made, start]
  have alike : (record.start.put name change).Alike (· ≠ name) record.start :=
    ⟨same, fun other apart => by simp [Draft.put, start, apart]⟩
  rw [object_at_eq orderless, object_at_eq orderless, walk_members_cons, stored]
  refine value_of_alike (walk_alike orderless (fun member listed other named => ?_) alike)
  rintro rfl
  exact missing member listed named

/-- A value may be replaced by one that its field reads alike. -/
theorem object_replace (orderless : record.Orderless) {before after : List (Bytes × Doc)}
    {first second : Bytes × Doc}
    (same : ∀ draft, record.act? depth draft first = record.act? depth draft second) :
    record.objectAt? depth (before ++ first :: after) =
      record.objectAt? depth (before ++ second :: after) := by
  rw [object_perm orderless List.perm_middle, object_perm orderless List.perm_middle,
    object_at_eq orderless, object_at_eq orderless, walk_members_cons, walk_members_cons, same]

theorem object_refused (orderless : record.Orderless) {member : Bytes × Doc}
    {members : List (Bytes × Doc)} (listed : member ∈ members)
    (refused : ∀ draft, record.act? depth draft member = none) :
    record.objectAt? depth members = none := by
  obtain ⟨before, after, rfl⟩ := List.append_of_mem listed
  rw [object_perm orderless List.perm_middle, object_at_eq orderless, walk_members_cons, refused]
  rfl

/-- A known name given twice is refused, whatever its values are. -/
theorem object_repeated (orderless : record.Orderless) {name : String} {field : Field ρ}
    (known : record.field? name = some field) {first second : Bytes × Doc}
    {members others : List (Bytes × Doc)} (one : textOf? first.1 = some name)
    (two : textOf? second.1 = some name) (permuted : members.Perm (first :: second :: others)) :
    record.objectAt? depth members = none := by
  rw [object_perm orderless permuted, object_at_eq orderless, walk_members_cons]
  rw [act?, one, Option.bind_some, member_at_known known]
  cases meaning (field.store.read depth) first.2 with
  | none => simp
  | some change =>
      simp [walk_members_cons, act?, two, member_at_known known, Draft.put, start]

end Record

end LocalNet.Json
