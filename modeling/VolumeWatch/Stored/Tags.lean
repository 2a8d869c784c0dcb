import VolumeWatch.Stored.Basic
import VolumeWatch.Tag.Tags

/-!
Stored forms of tags: a tag value under the name of its dimension, tags as a record with one field
for each dimension.
-/

namespace VolumeWatch

instance : Stored TagValue where
  toJson v := .ofVariant (Category.name v.dimension) (.ofText (Category.name v.value))
  ofJson? j := do
    let (name, content) ← j.variant?
    let d : Dimension ← Category.ofName? name
    let v : d.Value ← ofJson? (← content)
    return ⟨d, v⟩

instance : Stored Tags where
  toJson t := .ofMembers (t.values.map fun v =>
    (Category.label v.dimension, .ofText (Category.name v.value)))
  ofJson? j := do
    let contents ← j.fields? (Dimension.all.map Category.label)
    Tags.ofProjections? fun d => do ofJson? (← contents[Category.ordinal d]?)

end VolumeWatch
