import PluginKit.Proofs.Wire.KeyMap
import PluginKit.Wire.Schema

/-!
# Combining messages

The combination of two messages has the scalars of the second where they are not the defaults, the
occurrences of both in order, the map entries of both where the second wins, and the combination
of messages that occur once. A message that is read from the wire combines with what was there;
only the sign of a zero can get lost on the way.
-/

namespace PluginKit

namespace Wire

namespace Scalar

/-- What comes back of a value that may be left out: a negative zero is left out, too, and reads
as a positive one. -/
def kept : (s : Scalar) → s.Carrier → s.Carrier
  | double, value => if value = 0x8000000000000000 then 0 else value
  | _, value => value

def Plain : (s : Scalar) → s.Carrier → Prop
  | double, value => value ≠ 0x8000000000000000
  | _, _ => True

def combine (s : Scalar) (a b : s.Carrier) : s.Carrier := if s.isDefault b then a else b

end Scalar

mutual

def Element.kept : (e : Element) → e.Carrier → e.Carrier
  | .scalar s, value => s.kept value
  | .message _ fields, value => fields.kept value

/-- What comes back of a record. Repeated scalars are never left out. -/
def Fields.kept : (fields : Fields) → fields.Record → fields.Record
  | .nil, _ => ()
  | .cons _ .one (.scalar s) rest, value => (s.kept value.1, rest.kept value.2)
  | .cons _ .one (.message _ fields) rest, value => (value.1.map fields.kept, rest.kept value.2)
  | .cons _ .many (.scalar _) rest, value => (value.1, rest.kept value.2)
  | .cons _ .many (.message _ fields) rest, value => (value.1.map fields.kept, rest.kept value.2)
  | .cons _ .map element rest, value => (value.1.mapValues element.kept, rest.kept value.2)

end

mutual

def Element.Plain : (e : Element) → e.Carrier → Prop
  | .scalar s, value => s.Plain value
  | .message _ fields, value => fields.Plain value

/-- Whether no double in a record is a negative zero. -/
def Fields.Plain : (fields : Fields) → fields.Record → Prop
  | .nil, _ => True
  | .cons _ .one (.scalar s) rest, value => s.Plain value.1 ∧ rest.Plain value.2
  | .cons _ .one (.message _ fields) rest, value =>
      (∀ inner, value.1 = some inner → fields.Plain inner) ∧ rest.Plain value.2
  | .cons _ .many element rest, value =>
      (∀ item ∈ value.1, element.Plain item) ∧ rest.Plain value.2
  | .cons _ .map element rest, value =>
      (∀ entry ∈ value.1.entries, element.Plain entry.2) ∧ rest.Plain value.2

end

/-- The combination of two records, field by field. -/
def Fields.combine : (fields : Fields) → fields.Record → fields.Record → fields.Record
  | .nil, _, _ => ()
  | .cons _ .one (.scalar s) rest, a, b => (s.combine a.1 b.1, rest.combine a.2 b.2)
  | .cons _ .one (.message _ fields) rest, a, b =>
      (Option.merge fields.combine a.1 b.1, rest.combine a.2 b.2)
  | .cons _ .many _ rest, a, b => (a.1 ++ b.1, rest.combine a.2 b.2)
  | .cons _ .map _ rest, a, b => (a.1.override b.1, rest.combine a.2 b.2)

/-! ## Scalars -/

namespace Scalar

variable {s : Scalar} {a v : s.Carrier}

theorem isDefault_default (s : Scalar) : s.isDefault s.default = true := by
  cases s <;> rfl

theorem kept_of_isDefault (h : s.isDefault v = true) : s.kept v = s.default := by
  cases s with
  | double =>
      simp only [isDefault, Bool.or_eq_true, beq_iff_eq] at h
      rcases h with rfl | rfl <;> rfl
  | _ => simpa [isDefault, kept, default] using h

theorem kept_of_not_isDefault (h : s.isDefault v = false) : s.kept v = v := by
  cases s with
  | double =>
      simp only [isDefault, Bool.or_eq_false_iff, beq_eq_false_iff_ne] at h
      simp [kept, h.2]
  | _ => rfl

theorem kept_of_plain (h : s.Plain v) : s.kept v = v := by
  cases s with
  | double => simp [kept, show v ≠ 0x8000000000000000 from h]
  | _ => rfl

theorem combine_kept (s : Scalar) (a v : s.Carrier) :
    s.combine a (s.kept v) = if s.isDefault v then a else v := by
  cases hdefault : s.isDefault v with
  | true => simp [combine, kept_of_isDefault hdefault, isDefault_default]
  | false => simp [combine, kept_of_not_isDefault hdefault, hdefault]

theorem combine_default_kept (s : Scalar) (v : s.Carrier) :
    s.combine s.default (s.kept v) = s.kept v := by
  rw [combine_kept]
  cases hdefault : s.isDefault v with
  | true => simp [kept_of_isDefault hdefault]
  | false => simp [kept_of_not_isDefault hdefault]

end Scalar

/-! ## Records -/

mutual

theorem Element.kept_of_isDefault :
    (e : Element) → (v : e.Carrier) → e.isDefault v = true → e.kept v = e.default
  | .scalar _, _, h => Scalar.kept_of_isDefault h
  | .message _ fields, v, h => fields.kept_of_isDefault v h

theorem Fields.kept_of_isDefault :
    (fields : Fields) → (v : fields.Record) → fields.isDefault v = true →
      fields.kept v = fields.default
  | .nil, _, _ => rfl
  | .cons _ .one (.scalar s) rest, (first, others), h => by
      obtain ⟨hfirst, hothers⟩ := Bool.and_eq_true_iff.mp h
      simp only [Fields.kept, Fields.default, Scalar.kept_of_isDefault hfirst,
        rest.kept_of_isDefault others hothers]
  | .cons _ .one (.message _ _) rest, (first, others), h => by
      obtain ⟨hfirst, hothers⟩ := Bool.and_eq_true_iff.mp h
      obtain rfl : first = none := Option.isNone_iff_eq_none.mp hfirst
      simp only [Fields.kept, Fields.default, Option.map_none,
        rest.kept_of_isDefault others hothers]
  | .cons _ .many (.scalar _) rest, (first, others), h => by
      obtain ⟨hfirst, hothers⟩ := Bool.and_eq_true_iff.mp h
      obtain rfl : first = [] := List.isEmpty_iff.mp hfirst
      simp only [Fields.kept, Fields.default, rest.kept_of_isDefault others hothers]
  | .cons _ .many (.message _ _) rest, (first, others), h => by
      obtain ⟨hfirst, hothers⟩ := Bool.and_eq_true_iff.mp h
      obtain rfl : first = [] := List.isEmpty_iff.mp hfirst
      simp only [Fields.kept, Fields.default, List.map_nil,
        rest.kept_of_isDefault others hothers]
  | .cons _ .map element rest, (first, others), h => by
      obtain ⟨hfirst, hothers⟩ := Bool.and_eq_true_iff.mp h
      simp only [Fields.kept, Fields.default, KeyMap.mapValues_of_isEmpty hfirst,
        rest.kept_of_isDefault others hothers]

end

mutual

theorem Element.kept_of_plain : (e : Element) → (v : e.Carrier) → e.Plain v → e.kept v = v
  | .scalar _, _, h => Scalar.kept_of_plain h
  | .message _ fields, v, h => fields.kept_of_plain v h

theorem Fields.kept_of_plain :
    (fields : Fields) → (v : fields.Record) → fields.Plain v → fields.kept v = v
  | .nil, _, _ => rfl
  | .cons _ .one (.scalar s) rest, (first, others), h => by
      simp only [Fields.kept, Scalar.kept_of_plain h.1, rest.kept_of_plain others h.2]
  | .cons _ .one (.message _ fields) rest, (first, others), h => by
      cases first with
      | none => simp only [Fields.kept, Option.map_none, rest.kept_of_plain others h.2]
      | some inner =>
          simp only [Fields.kept, Option.map_some, fields.kept_of_plain inner (h.1 inner rfl),
            rest.kept_of_plain others h.2]
  | .cons _ .many (.scalar _) rest, (first, others), h => by
      simp only [Fields.kept, rest.kept_of_plain others h.2]
  | .cons _ .many (.message _ fields) rest, (first, others), h => by
      have hitems : first.map fields.kept = first := by
        rw [List.map_congr_left (g := id) fun item hmem => fields.kept_of_plain item (h.1 item hmem),
          List.map_id]
      simp only [Fields.kept, hitems, rest.kept_of_plain others h.2]
  | .cons _ .map element rest, (first, others), h => by
      have hentries : first.mapValues element.kept = first :=
        KeyMap.mapValues_eq_self fun entry hmem => element.kept_of_plain entry.2 (h.1 entry hmem)
      simp only [Fields.kept, hentries, rest.kept_of_plain others h.2]

end

/-- What comes back of a record is what it combines to with a record in which nothing is set. -/
theorem Fields.combine_default_kept :
    (fields : Fields) → (v : fields.Record) →
      fields.combine fields.default (fields.kept v) = fields.kept v
  | .nil, _ => rfl
  | .cons _ .one (.scalar s) rest, (first, others) => by
      simp only [Fields.kept, Fields.default, Fields.combine, Scalar.combine_default_kept,
        rest.combine_default_kept others]
  | .cons _ .one (.message _ _) rest, (first, others) => by
      cases first <;>
        simp only [Fields.kept, Fields.default, Fields.combine, Option.map_none, Option.map_some,
          Option.merge, rest.combine_default_kept others]
  | .cons _ .many (.scalar _) rest, (first, others) => by
      simp only [Fields.kept, Fields.default, Fields.combine, List.nil_append,
        rest.combine_default_kept others]
  | .cons _ .many (.message _ _) rest, (first, others) => by
      simp only [Fields.kept, Fields.default, Fields.combine, List.nil_append,
        rest.combine_default_kept others]
  | .cons _ .map _ rest, (first, others) => by
      simp only [Fields.kept, Fields.default, Fields.combine, KeyMap.empty_override,
        rest.combine_default_kept others]

end Wire

end PluginKit
