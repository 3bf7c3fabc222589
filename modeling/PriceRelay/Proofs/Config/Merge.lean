import PriceRelay.Proofs.Config.Load
import PriceRelay.Proofs.Text.Infix
import PriceRelay.Proofs.Text.Trim
/-!
# What merging adds

An extra list adds addresses to the configured networks and does nothing else. It adds what it has
for a network, but nothing that the network has already or that was just added, however it is
spelled; the same list adds nothing a second time.

* `ExtraEndpoints.IsPlainText` is what a useful address looks like, `ExtraEndpoints.mem_urlsFor_iff`
  says which addresses are useful to a network,
* `NetworkConfig.Added` is what holds of addresses that were added,
* `Config.mergeExtra_adds` that merging adds such addresses and changes nothing else.
-/

namespace PriceRelay

/-! ### Useful addresses -/

namespace ExtraEndpoints

/-- A plain address of the web, without a placeholder in it and without blanks around it. -/
structure IsPlainText (url : String) : Prop where
  /-- it is not spelled with blanks around it -/
  trimmed : Text.trim url = url
  /-- it is one of the web -/
  web : "https://".toList <+: url.toList ∨ "http://".toList <+: url.toList
  /-- there is no placeholder in it -/
  complete : ¬ "$\x7b".toList <:+: url.toList

theorem isPlain_iff {url : String} :
    isPlain url = true ↔ ("https://".toList <+: url.toList ∨ "http://".toList <+: url.toList) ∧
      ¬ "$\x7b".toList <:+: url.toList := by
  rw [isPlain, Bool.and_eq_true, Bool.or_eq_true, Text.startsWith_iff, Text.startsWith_iff,
    Bool.not_eq_true', ← Bool.not_eq_true, Text.contains_iff]

/-- What a document has for a network: the entries of the chains with its number that are plain
addresses once they are trimmed. -/
theorem mem_urlsFor_iff {extra : ExtraEndpoints} {n : NetworkId} {url : String} :
    url ∈ extra.urlsFor n ↔ IsPlainText url ∧ ∃ c ∈ extra.chains, networkOf? c.1 = some n ∧
      ∃ entry, some entry ∈ c.2 ∧ Text.trim entry = url := by
  rw [mem_urlsFor]
  simp only [plainUrls, List.mem_filter, List.mem_map, List.mem_filterMap, id_eq]
  constructor
  · rintro ⟨c, hc, hn, ⟨entry, ⟨-, hentry, rfl⟩, rfl⟩, hplain⟩
    obtain ⟨hweb, hcomplete⟩ := isPlain_iff.mp hplain
    exact ⟨⟨Text.trim_trim entry, hweb, hcomplete⟩, c, hc, hn, entry, hentry, rfl⟩
  · rintro ⟨hplain, c, hc, hn, entry, hentry, rfl⟩
    exact ⟨c, hc, hn, ⟨entry, ⟨some entry, hentry, rfl⟩, rfl⟩,
      isPlain_iff.mpr ⟨hplain.web, hplain.complete⟩⟩

/-- The order of the chains does not matter to what there is for a network. -/
theorem mem_urlsFor_along {extra : ExtraEndpoints} (t : Traversal) {n : NetworkId} {url : String} :
    url ∈ (extra.along t).urlsFor n ↔ url ∈ extra.urlsFor n := by
  simp only [mem_urlsFor, along, (t.perm extra.chains).mem_iff]

end ExtraEndpoints

/-! ### What is added -/

/-- No two of the new addresses are spelled alike, and none like a known one. -/
theorem nodup_freshUrls (known urls : List String) :
    ((freshUrls known urls).map endpointKey).Nodup ∧
      ∀ url ∈ freshUrls known urls, endpointKey url ∉ known := by
  induction urls generalizing known with
  | nil => exact ⟨List.nodup_nil, nofun⟩
  | cons first urls ih =>
    rw [freshUrls]
    split
    · exact ih known
    · next hfirst =>
      obtain ⟨hnodup, hnew⟩ := ih (endpointKey first :: known)
      refine ⟨List.nodup_cons.mpr ⟨?_, hnodup⟩, ?_⟩
      · -- the first one is known to the rest
        intro hmem
        obtain ⟨url, hurl, heq⟩ := List.mem_map.mp hmem
        refine hnew url hurl ?_
        rw [heq]
        exact List.mem_cons_self
      · intro url hurl
        rcases List.mem_cons.mp hurl with rfl | hurl
        · exact hfirst
        · exact fun hknown => hnew url hurl (List.mem_cons_of_mem _ hknown)

/-- Addresses that an extra list adds to a network. -/
structure NetworkConfig.Added (extra : ExtraEndpoints) (net : NetworkConfig) (added : List String) :
    Prop where
  /-- each is an entry of a chain with the number of the network -/
  listed : ∀ url ∈ added, ∃ c ∈ extra.chains, ExtraEndpoints.networkOf? c.1 = some net.network ∧
    ∃ entry, some entry ∈ c.2 ∧ Text.trim entry = url
  /-- it is a plain address -/
  plain : ∀ url ∈ added, ExtraEndpoints.IsPlainText url
  /-- no two of them are spelled alike -/
  nodup : (added.map endpointKey).Nodup
  /-- and none is like one that the network has had -/
  fresh : ∀ url ∈ added, endpointKey url ∉ net.endpoints.map endpointKey
  /-- whatever the list has for the network, it has now in some spelling -/
  complete : ∀ url ∈ extra.urlsFor net.network,
    endpointKey url ∈ (net.endpoints ++ added).map endpointKey

theorem NetworkConfig.added_additions (t : Traversal) (extra : ExtraEndpoints)
    (net : NetworkConfig) : net.Added extra (net.additions (extra.along t)) := by
  have huseful {url : String} (h : url ∈ net.additions (extra.along t)) :=
    ExtraEndpoints.mem_urlsFor_iff.mp ((ExtraEndpoints.mem_urlsFor_along t).mp
      (mem_of_mem_freshUrls h))
  obtain ⟨hnodup, hfresh⟩ := nodup_freshUrls (net.endpoints.map endpointKey)
    ((extra.along t).urlsFor net.network)
  exact {
    listed := fun url hurl => (huseful hurl).2
    plain := fun url hurl => (huseful hurl).1
    nodup := hnodup
    fresh := hfresh
    complete := fun url hurl => by
      rw [List.map_append, List.mem_append]
      exact mem_freshUrls_or_known ((ExtraEndpoints.mem_urlsFor_along t).mpr hurl) }

namespace Config

/-- **Merging adds what is new, and nothing else.** In whatever order the chains of an extra list
are gone through, the addresses of each network are followed by new ones, which are useful to it,
and the rest of the configuration stays as it is. The new ones are counted. Each network has then
got whatever the list has for it, so the list adds nothing more when it is merged in again, in
whatever order. -/
theorem mergeExtra_adds (t : Traversal) (extra : ExtraEndpoints) (c : Config) :
    ∃ added : NetworkConfig → List String,
      (c.mergeExtra (extra.along t)).1 = { c with networks := c.networks.map fun net =>
        { net with endpoints := net.endpoints ++ added net } } ∧
      (c.mergeExtra (extra.along t)).2 = (c.networks.flatMap added).length ∧
      (∀ net ∈ c.networks, net.Added extra (added net)) ∧
      ∀ t' : Traversal, (c.mergeExtra (extra.along t)).1.mergeExtra (extra.along t') =
        ((c.mergeExtra (extra.along t)).1, 0) := by
  refine ⟨fun net => net.additions (extra.along t), rfl, rfl, ?_, fun t' => ?_⟩
  · exact fun net _ => net.added_additions t extra
  · exact mergeExtra_again ((t'.perm extra.chains).trans (t.perm extra.chains).symm) c

/-- Two chains with the number of one network. Of what they have, one address is new to a network
that has the other one in capitals, and it is spelled as it is found first. -/
theorem mergeExtra_adds_first_found :
    let backwards : Traversal := ⟨List.reverse, List.reverse_perm⟩
    let extra : ExtraEndpoints := ⟨[("1", [some "http://b/", none, some "wss://c"]),
      (" 01", [some "https://a/", some " http://B ", some "https://d/${KEY}"])]⟩
    let net : NetworkConfig := { network := 1, endpoints := ["HTTPS://A", ""] }
    (({ networks := [net] } : Config).mergeExtra (extra.along backwards)).1 =
        { networks := [{ network := 1, endpoints := ["HTTPS://A", "", "http://B"] }] } ∧
      net.Added extra ["http://B"] ∧
      ({ networks := [{ network := 1, endpoints := ["HTTPS://A", "", "http://B"] }] } :
          Config).mergeExtra (extra.along .asListed) =
        ({ networks := [{ network := 1, endpoints := ["HTTPS://A", "", "http://B"] }] }, 0) := by
  intro backwards extra net
  have hmerged : (({ networks := [net] } : Config).mergeExtra (extra.along backwards)).1 =
      { networks := [{ network := 1, endpoints := ["HTTPS://A", "", "http://B"] }] } := by
    decide +kernel
  obtain ⟨added, heq, -, hadded, hagain⟩ := mergeExtra_adds backwards extra { networks := [net] }
  have hnet : added net = ["http://B"] := by
    rw [hmerged] at heq
    have hendpoints := congrArg (fun c => c.networks.map NetworkConfig.endpoints) heq
    have hfirst : net.endpoints ++ ["http://B"] = net.endpoints ++ added net :=
      (List.cons.inj hendpoints).1
    exact (List.append_cancel_left hfirst).symm
  rw [hmerged] at hagain
  exact ⟨hmerged, hnet ▸ hadded net (List.mem_singleton.mpr rfl), hagain .asListed⟩

end Config

end PriceRelay
