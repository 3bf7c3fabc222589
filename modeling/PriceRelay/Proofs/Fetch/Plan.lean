import Mathlib.Data.List.Basic
import Mathlib.Data.List.Induction
import Mathlib.Data.List.Nodup
import PriceRelay.Fetch.Cycle
/-!
# What a cycle sets out to do

A plan sorts the tracked feeds: every feed is read by itself, or its id is asked for, or nobody can
fetch it.

* `Feed.isFetchable` says which feeds somebody can fetch,
* `CyclePlan.aggregators_ofFeeds`, `CyclePlan.ids_ofFeeds` and `CyclePlan.skipped_ofFeeds` say what
  a plan makes of the feeds, and `CyclePlan.length_ofFeeds` that it leaves none out,
* `Batch.feed_of_mem_writes` says what feeds a batch writes, and `Batch.nodup_writes_iff` when it
  writes one of them twice.
-/

namespace PriceRelay

/-- Whether somebody can fetch a feed. -/
def Feed.isFetchable (hasService : Bool) (f : Feed) : Bool :=
  match f.source with
  | .chainlink => true
  | .pyth => hasService
  | .custom _ => false

namespace CyclePlan

variable (hasService : Bool) (feeds : List Feed)

theorem ofFeeds_concat (f : Feed) :
    ofFeeds hasService (feeds ++ [f]) = (ofFeeds hasService feeds).add hasService f :=
  List.foldl_concat ..

/-- The aggregators are read, each by itself. -/
theorem aggregators_ofFeeds :
    (ofFeeds hasService feeds).aggregators = feeds.filter fun f => f.source = .chainlink := by
  induction feeds using List.reverseRecOn with
  | nil => rfl
  | append_singleton feeds f ih =>
    rw [ofFeeds_concat, List.filter_append, ← ih, add]
    obtain ⟨n, source, identifier⟩ := f
    cases source with
    | chainlink => rfl
    | pyth => cases hasService <;> exact (List.append_nil _).symm
    | custom name => exact (List.append_nil _).symm

/-- With a quote service, the ids of its feeds are asked for. -/
theorem ids_ofFeeds : (ofFeeds hasService feeds).ids =
    (feeds.filter fun f => f.source = .pyth && hasService).map Feed.identifier := by
  induction feeds using List.reverseRecOn with
  | nil => rfl
  | append_singleton feeds f ih =>
    rw [ofFeeds_concat, List.filter_append, List.map_append, ← ih, add]
    obtain ⟨n, source, identifier⟩ := f
    cases source with
    | chainlink => exact (List.append_nil _).symm
    | pyth =>
      cases hasService with
      | false => exact (List.append_nil _).symm
      | true => rfl
    | custom name => exact (List.append_nil _).symm

/-- Feeds that nobody can fetch are skipped. -/
theorem skipped_ofFeeds : (ofFeeds hasService feeds).skipped =
    (feeds.filter fun f => !f.isFetchable hasService).length := by
  induction feeds using List.reverseRecOn with
  | nil => rfl
  | append_singleton feeds f ih =>
    rw [ofFeeds_concat, List.filter_append, List.length_append, ← ih, add]
    obtain ⟨n, source, identifier⟩ := f
    cases source with
    | chainlink => rfl
    | pyth => cases hasService <;> rfl
    | custom name => rfl

/-- Each feed that somebody can fetch is read or asked for. -/
theorem length_fetchable : (feeds.filter (Feed.isFetchable hasService)).length =
    (ofFeeds hasService feeds).aggregators.length + (ofFeeds hasService feeds).ids.length := by
  rw [aggregators_ofFeeds, ids_ofFeeds, List.length_map]
  induction feeds with
  | nil => rfl
  | cons f feeds ih =>
    obtain ⟨n, source, identifier⟩ := f
    cases source with
    | chainlink => exact (congrArg (· + 1) ih).trans (Nat.add_right_comm ..)
    | pyth =>
      cases hasService with
      | false => exact ih
      | true => exact congrArg (· + 1) ih
    | custom name => exact ih

/-- **No feed is left out.** -/
theorem length_ofFeeds : feeds.length = (ofFeeds hasService feeds).aggregators.length +
    (ofFeeds hasService feeds).ids.length + (ofFeeds hasService feeds).skipped := by
  rw [← length_fetchable, skipped_ofFeeds]
  exact List.length_eq_length_filter_add _

end CyclePlan

namespace Batch

/-- What a batch writes is a feed of no chain, with an id that it asks for. -/
theorem feed_of_mem_writes {ids : List String} {symbols : String → Option String} {now : Moment}
    {quotes : List Quote} {w : Write} (h : w ∈ writes ids symbols now quotes) :
    ∃ id ∈ ids, w.feed = ⟨.offChain, .pyth, id⟩ := by
  obtain ⟨q, hq, rfl⟩ := List.mem_map.mp h
  exact ⟨q.identifier, of_decide_eq_true (List.mem_filter.mp hq).2, rfl⟩

/-- What is written are the quotes that were asked for, in the order of the reply. -/
theorem map_feed_writes (ids : List String) (symbols : String → Option String) (now : Moment)
    (quotes : List Quote) : (writes ids symbols now quotes).map Write.feed =
      ((quotes.map Quote.identifier).filter fun id => id ∈ ids).map
        fun id => ⟨.offChain, .pyth, id⟩ := by
  rw [writes, List.map_map, List.filter_map, List.map_map]
  rfl

/-- A batch writes no feed twice exactly when no id that it asks for is quoted twice. -/
theorem nodup_writes_iff {ids : List String} {symbols : String → Option String} {now : Moment}
    {quotes : List Quote} : ((writes ids symbols now quotes).map Write.feed).Nodup ↔
      ((quotes.map Quote.identifier).filter fun id => id ∈ ids).Nodup := by
  have hinj : Function.Injective fun id => (⟨.offChain, .pyth, id⟩ : Feed) :=
    fun id id' h => congrArg Feed.identifier h
  rw [map_feed_writes, List.nodup_map_iff hinj]

end Batch

end PriceRelay
