import PriceRelay.Proofs.Config.Merge
/-!
# The order of the chains

The chains of an extra list are kept by name and gone through in no particular order. Several names
may stand for one network, `1` and `01` for instance, and an address is kept as it is spelled where
it is met first. So what a configuration becomes may depend on the order: the order of the new
addresses does, and so does their spelling.

It does not where the chains of a network agree, which is to say that of any two of them one adds
what the other adds and then perhaps more.

* `freshUrls_append` says what is new in one list after another,
* `NetworkConfig.ChainsAgree` that the chains of a network agree, which can be decided,
* `NetworkConfig.isLongest_additions` what is added in that case,
* `Config.mergeExtra_along_iff` that it is the only case in which the order does not matter.
-/

namespace PriceRelay

/-! ### One list after another -/

/-- It does not matter how the known addresses are listed. -/
theorem freshUrls_congr {known known' : List String} (h : ∀ key, key ∈ known ↔ key ∈ known')
    (urls : List String) : freshUrls known urls = freshUrls known' urls := by
  induction urls generalizing known known' with
  | nil => rfl
  | cons url urls ih =>
    have hcons : ∀ key, key ∈ endpointKey url :: known ↔ key ∈ endpointKey url :: known' := by
      intro key
      rw [List.mem_cons, List.mem_cons, h key]
    simp only [freshUrls, h (endpointKey url), ih h, ih hcons]

/-- If more is known, the addresses that are spelled like it are not new. -/
theorem freshUrls_known_append (known seen urls : List String) :
    freshUrls (known ++ seen) urls =
      (freshUrls known urls).filter fun url => endpointKey url ∉ seen := by
  induction urls generalizing known with
  | nil => rfl
  | cons url urls ih =>
    rw [freshUrls, freshUrls]
    by_cases hknown : endpointKey url ∈ known
    · rw [if_pos (List.mem_append_left _ hknown), if_pos hknown, ih]
    · rw [if_neg hknown, List.filter_cons, ← ih]
      by_cases hseen : endpointKey url ∈ seen
      · rw [if_pos (List.mem_append_right _ hseen), if_neg (by simpa using hseen)]
        refine freshUrls_congr (fun key => ?_) urls
        -- the address is among those seen already
        rw [List.cons_append, List.mem_cons, or_iff_right_of_imp]
        rintro rfl
        exact List.mem_append_right _ hseen
      · rw [if_neg (by simp [hknown, hseen]), if_pos (by simpa using hseen), List.cons_append]

/-- What is new in one list, and what is new in another one after it. -/
theorem freshUrls_append (known xs ys : List String) :
    freshUrls known (xs ++ ys) = freshUrls known xs ++ (freshUrls known ys).filter fun url =>
      endpointKey url ∉ (freshUrls known xs).map endpointKey := by
  induction xs generalizing known with
  | nil => simp [freshUrls]
  | cons x xs ih =>
    rw [List.cons_append, freshUrls, freshUrls]
    split
    · exact ih known
    · rw [ih, List.cons_append]
      have hknown : freshUrls (endpointKey x :: known) ys =
          (freshUrls known ys).filter fun url => endpointKey url ∉ [endpointKey x] := by
        rw [← freshUrls_known_append]
        exact freshUrls_congr (fun key => by simp [or_comm]) ys
      rw [hknown, List.filter_filter]
      refine congrArg (fun rest => x :: (freshUrls (endpointKey x :: known) xs ++ rest)) ?_
      refine List.filter_congr fun url _ => ?_
      rw [List.map_cons, ← Bool.decide_and, decide_eq_decide, List.mem_singleton, List.mem_cons,
        not_or, and_comm]

/-- Nothing is new in a list that begins another one. -/
theorem freshUrls_append_eq_left {known xs ys : List String}
    (h : freshUrls known ys <+: freshUrls known xs) :
    freshUrls known (xs ++ ys) = freshUrls known xs := by
  rw [freshUrls_append, List.filter_eq_nil_iff.mpr, List.append_nil]
  intro url hurl
  have hmem := List.mem_map_of_mem (f := endpointKey) (h.subset hurl)
  simpa using hmem

/-- After the beginning of a list the rest of it is new. -/
theorem freshUrls_append_eq_right {known xs ys : List String}
    (h : freshUrls known xs <+: freshUrls known ys) :
    freshUrls known (xs ++ ys) = freshUrls known ys := by
  obtain ⟨rest, hrest⟩ := h
  have hnodup := (nodup_freshUrls known ys).1
  rw [← hrest, List.map_append, List.nodup_append] at hnodup
  rw [freshUrls_append, ← hrest, List.filter_append]
  have hnone : (freshUrls known xs).filter (fun url =>
      endpointKey url ∉ (freshUrls known xs).map endpointKey) = [] := by
    refine List.filter_eq_nil_iff.mpr fun url hurl => ?_
    simpa using ⟨url, hurl, rfl⟩
  have hall : rest.filter (fun url =>
      endpointKey url ∉ (freshUrls known xs).map endpointKey) = rest := by
    refine List.filter_eq_self.mpr fun url hurl => decide_eq_true fun hmem => ?_
    exact hnodup.2.2 _ hmem _ (List.mem_map_of_mem hurl) rfl
  rw [hnone, hall, List.nil_append]

/-! ### Chains that agree -/

namespace ExtraEndpoints

/-- The chains that stand under the number of a network. -/
def chainsFor (extra : ExtraEndpoints) (n : NetworkId) : List (String × List (Option String)) :=
  extra.chains.filter fun c => networkOf? c.1 = some n

theorem urlsFor_eq_flatMap (extra : ExtraEndpoints) (n : NetworkId) :
    extra.urlsFor n = (extra.chainsFor n).flatMap fun c => plainUrls c.2 :=
  rfl

theorem chainsFor_along_perm (extra : ExtraEndpoints) (t : Traversal) (n : NetworkId) :
    ((extra.along t).chainsFor n).Perm (extra.chainsFor n) :=
  (t.perm extra.chains).filter _

end ExtraEndpoints

namespace NetworkConfig

variable {extra : ExtraEndpoints} {net : NetworkConfig}

/-- The addresses that a chain would add to a network if it were the only one. -/
def news (net : NetworkConfig) (c : String × List (Option String)) : List String :=
  freshUrls (net.endpoints.map endpointKey) (ExtraEndpoints.plainUrls c.2)

/-- The chains of a network agree: of any two of them, what one adds is how the other begins. -/
def ChainsAgree (net : NetworkConfig) (extra : ExtraEndpoints) : Prop :=
  ∀ c ∈ extra.chainsFor net.network, ∀ d ∈ extra.chainsFor net.network,
    net.news c <+: net.news d ∨ net.news d <+: net.news c

instance : Decidable (net.ChainsAgree extra) :=
  inferInstanceAs (Decidable (∀ c ∈ extra.chainsFor net.network,
    ∀ d ∈ extra.chainsFor net.network, net.news c <+: net.news d ∨ net.news d <+: net.news c))

/-- What some chains add is what one of them adds that adds most. -/
structure IsLongest (net : NetworkConfig) (cs : List (String × List (Option String)))
    (added : List String) : Prop where
  /-- what each chain adds is at its beginning -/
  begins : ∀ c ∈ cs, net.news c <+: added
  /-- it is what one of them adds, if there are any -/
  attained : added = [] ∨ ∃ c ∈ cs, added = net.news c

/-- The order of the chains does not matter to which is the longest. -/
theorem IsLongest.unique {cs ds : List (String × List (Option String))} {xs ys : List String}
    (hperm : cs.Perm ds) (hxs : net.IsLongest cs xs) (hys : net.IsLongest ds ys) : xs = ys := by
  have hle {cs ds : List (String × List (Option String))} {xs ys : List String}
      (hsub : ∀ c ∈ cs, c ∈ ds) (hxs : net.IsLongest cs xs) (hys : net.IsLongest ds ys) :
      xs <+: ys := by
    rcases hxs.attained with rfl | ⟨c, hc, rfl⟩
    · exact List.nil_prefix
    · exact hys.begins c (hsub c hc)
  have hxy : xs <+: ys := hle (fun c => hperm.mem_iff.mp) hxs hys
  have hyx : ys <+: xs := hle (fun c => hperm.mem_iff.mpr) hys hxs
  exact hxy.eq_of_length_le hyx.length_le

/-- Chains that agree add what the one of them adds that adds most. -/
theorem isLongest_freshUrls {cs : List (String × List (Option String))}
    (h : ∀ c ∈ cs, ∀ d ∈ cs, net.news c <+: net.news d ∨ net.news d <+: net.news c) :
    net.IsLongest cs (freshUrls (net.endpoints.map endpointKey)
      (cs.flatMap fun c => ExtraEndpoints.plainUrls c.2)) := by
  induction cs with
  | nil => exact ⟨nofun, .inl rfl⟩
  | cons c cs ih =>
    have hrest := ih fun d hd e he =>
      h d (List.mem_cons_of_mem _ hd) e (List.mem_cons_of_mem _ he)
    rw [List.flatMap_cons]
    generalize hurls : (cs.flatMap fun c => ExtraEndpoints.plainUrls c.2) = urls at hrest ⊢
    -- the first chain agrees with the rest, since the rest adds what one chain of it adds
    have hfirst : freshUrls (net.endpoints.map endpointKey) urls <+: net.news c ∨
        net.news c <+: freshUrls (net.endpoints.map endpointKey) urls := by
      rcases hrest.attained with hnil | ⟨d, hd, heq⟩
      · rw [hnil]
        exact .inl List.nil_prefix
      · rw [heq]
        exact h d (List.mem_cons_of_mem _ hd) c List.mem_cons_self
    rcases hfirst with hfirst | hfirst
    · rw [freshUrls_append_eq_left hfirst]
      refine ⟨fun d hd => ?_, .inr ⟨c, List.mem_cons_self, rfl⟩⟩
      rcases List.mem_cons.mp hd with rfl | hd
      · exact List.prefix_rfl
      · exact (hrest.begins d hd).trans hfirst
    · rw [freshUrls_append_eq_right hfirst]
      refine ⟨fun d hd => ?_, hrest.attained.imp_right ?_⟩
      · rcases List.mem_cons.mp hd with rfl | hd
        · exact hfirst
        · exact hrest.begins d hd
      · exact fun ⟨d, hd, heq⟩ => ⟨d, List.mem_cons_of_mem _ hd, heq⟩

theorem isLongest_additions (h : net.ChainsAgree extra) (t : Traversal) :
    net.IsLongest ((extra.along t).chainsFor net.network) (net.additions (extra.along t)) := by
  have hperm := extra.chainsFor_along_perm t net.network
  exact isLongest_freshUrls fun c hc d hd => h c (hperm.mem_iff.mp hc) d (hperm.mem_iff.mp hd)

/-- Where the chains agree, the same is added in any order. -/
theorem additions_along_eq (h : net.ChainsAgree extra) (t t' : Traversal) :
    net.additions (extra.along t) = net.additions (extra.along t') := by
  have hperm := (extra.chainsFor_along_perm t net.network).trans
    (extra.chainsFor_along_perm t' net.network).symm
  exact (isLongest_additions h t).unique hperm (isLongest_additions h t')

end NetworkConfig

/-- One chain is gone through first, if it is there. -/
def Traversal.beginningWith (c : String × List (Option String)) : Traversal where
  order chains := if c ∈ chains then c :: chains.erase c else chains
  perm chains := by
    split
    · next hmem => exact (List.perm_cons_erase hmem).symm
    · exact .refl chains

/-- What the first chain adds is how the added addresses begin. -/
theorem NetworkConfig.news_prefix_additions {extra : ExtraEndpoints} {net : NetworkConfig}
    {c : String × List (Option String)} (hc : c ∈ extra.chainsFor net.network) :
    net.news c <+: net.additions (extra.along (.beginningWith c)) := by
  obtain ⟨hmem, hnumber⟩ := List.mem_filter.mp hc
  have hlisted : (extra.along (.beginningWith c)).chains = c :: extra.chains.erase c := if_pos hmem
  have hchains : (extra.along (.beginningWith c)).chainsFor net.network =
      c :: (⟨extra.chains.erase c⟩ : ExtraEndpoints).chainsFor net.network := by
    rw [ExtraEndpoints.chainsFor, hlisted]
    exact List.filter_cons_of_pos hnumber
  rw [additions, ExtraEndpoints.urlsFor_eq_flatMap, hchains, List.flatMap_cons, freshUrls_append]
  exact List.prefix_append ..

namespace Config

/-- **The order matters unless the chains agree.** Merging gives the same configuration in whatever
order the chains of an extra list are gone through, with the same addresses spelled in the same way
and listed in the same order, exactly when the chains of each configured network agree. -/
theorem mergeExtra_along_iff (extra : ExtraEndpoints) (c : Config) :
    (∀ t t' : Traversal, c.mergeExtra (extra.along t) = c.mergeExtra (extra.along t')) ↔
      ∀ net ∈ c.networks, net.ChainsAgree extra := by
  constructor
  · intro h net hnet d hd e he
    have hnetworks := congrArg (fun merged => merged.1.networks)
      (h (.beginningWith d) (.beginningWith e))
    have hsame := congrArg NetworkConfig.endpoints (List.map_inj_left.mp hnetworks net hnet)
    -- so both chains are at the beginning of what is added
    have hd' := NetworkConfig.news_prefix_additions hd
    rw [List.append_cancel_left hsame] at hd'
    exact List.prefix_or_prefix_of_prefix hd' (NetworkConfig.news_prefix_additions he)
  · intro h t t'
    have hadded : ∀ net ∈ c.networks,
        net.additions (extra.along t) = net.additions (extra.along t') :=
      fun net hnet => NetworkConfig.additions_along_eq (h net hnet) t t'
    have hnetworks : c.networks.map (NetworkConfig.mergeExtra (extra.along t)) =
        c.networks.map (NetworkConfig.mergeExtra (extra.along t')) :=
      List.map_congr_left fun net hnet => by
        rw [NetworkConfig.mergeExtra, NetworkConfig.mergeExtra, hadded net hnet]
    have hcount : (c.networks.flatMap fun net => net.additions (extra.along t)) =
        c.networks.flatMap fun net => net.additions (extra.along t') :=
      List.flatMap_congr hadded
    rw [mergeExtra, mergeExtra, hnetworks, hcount]

/-- Two chains of a network that agree: one address of the first is known in another spelling, and
the other one is how the second chain begins. -/
theorem mergeExtra_along_iff_of_agreeing :
    let config : Config := { networks := [{ network := 1, endpoints := ["http://a/"] }] }
    let extra : ExtraEndpoints := ⟨[("01", [some "http://A", some "http://b"]),
      ("1", [some "http://b", some "http://c"])]⟩
    (∀ net ∈ config.networks, net.ChainsAgree extra) ∧
      ∀ t : Traversal, config.mergeExtra (extra.along t) =
        ({ networks := [
          { network := 1, endpoints := ["http://a/", "http://b", "http://c"] }] }, 2) := by
  intro config extra
  have hagree : ∀ net ∈ config.networks, net.ChainsAgree extra := by decide +kernel
  refine ⟨hagree, fun t => ?_⟩
  rw [(mergeExtra_along_iff extra config).mpr hagree t .asListed]
  decide +kernel

/-- A document with two chains that stand for one network. They spell an address in two ways, and
each order keeps the one that it meets first. -/
theorem mergeExtra_spelled_by_order :
    let backwards : Traversal := ⟨List.reverse, List.reverse_perm⟩
    let config : Config := { networks := [{ network := 1 }] }
    ∃ extra, ExtraEndpoints.ofJson? ("\x7b\"1\":\x7b\"rpcs\":[\"http://B\"]\x7d," ++
        "\"01\":\x7b\"rpcs\":[\"http://b\"]\x7d\x7d") = some extra ∧
      (config.mergeExtra (extra.along .asListed)).1 =
        { networks := [{ network := 1, endpoints := ["http://b"] }] } ∧
      (config.mergeExtra (extra.along backwards)).1 =
        { networks := [{ network := 1, endpoints := ["http://B"] }] } := by
  intro backwards config
  refine ⟨⟨[("01", [some "http://b"]), ("1", [some "http://B"])]⟩, ?_, ?_, ?_⟩
  · decide +kernel
  · decide +kernel
  · decide +kernel

end Config

end PriceRelay
