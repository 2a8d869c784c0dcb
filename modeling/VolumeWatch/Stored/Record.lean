import VolumeWatch.Json.Writer
import VolumeWatch.Record
import VolumeWatch.Stored.Series
import VolumeWatch.Stored.Statistics

/-!
Stored forms of records: objects that begin with the kind of the record, one on each line.
-/

namespace VolumeWatch.Record

def kind {α : Type} : Record α → String
  | .tagIds _ => "tag_ids"
  | .bar .. => "bar"
  | .alert _ => "alert"
  | .outcome _ => "outcome"
  | .snapshot _ => "snapshot"

def members : Record Float → List (String × Json)
  | .tagIds entries => [("entries", toJson entries)]
  | .bar t b => ("timeframe", toJson t) :: b.members
  | .alert a =>
    [("contract", toJson a.contract), ("option_type", toJson a.optionType),
      ("strike", toJson a.strike), ("timeframe", toJson a.timeframe),
      ("reference_price", toJson a.price), ("reference_time", toJson a.reference),
      ("tag_ids", toJson a.tagIds), ("packed_tags", toJson a.packedTags)]
  | .outcome o =>
    [("contract", toJson o.contract), ("reference_time", toJson o.reference),
      ("packed_tags", toJson o.packedTags), ("win_class", toJson o.outcome.winClass),
      ("percent_move", toJson o.outcome.move), ("combination", toJson o.entry)]
  | .snapshot s => s.members

def line (r : Record Float) : String :=
  (Json.ofMembers (("record", .ofText r.kind) :: r.members)).render

end VolumeWatch.Record
