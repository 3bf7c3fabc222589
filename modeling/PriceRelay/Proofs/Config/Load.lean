import PriceRelay.Proofs.Config.Limits
import PriceRelay.Setting.Load
/-!
# What a loaded configuration is good for

Three pieces have to agree on what an address is and on what a network is: merging passes over what
a network has already, validation refuses a network without an address or one that is there twice,
and the selector leaves blank addresses out and keeps one list per network. They do agree, so every
network that is loaded can be probed at its own addresses and at those merged in.

* `Traversal` is an order in which the chains of an extra list are gone through, since they come in
  no order; `Config.loadAlong` loads with one,
* `mem_freshUrls_or_known` and `freshUrls_eq_nil` say that merging leaves nothing to merge,
* `Config.validate_mergeExtra` that it spoils nothing,
* `Config.Usable` is what holds of a configuration that was loaded, `Config.loadAlong_usable` that
  it does.
-/

namespace PriceRelay

/-- An order in which the chains of a document are gone through. -/
structure Traversal where
  /-- the chains as they are gone through -/
  order : List (String × List (Option String)) → List (String × List (Option String))
  /-- each of them is gone through once -/
  perm : ∀ chains, (order chains).Perm chains

/-- The chains are gone through as they are listed. -/
def Traversal.asListed : Traversal := ⟨id, fun chains => .refl chains⟩

/-! ### Addresses that are new -/

theorem mem_of_mem_freshUrls {url : String} {known urls : List String}
    (h : url ∈ freshUrls known urls) : url ∈ urls := by
  induction urls generalizing known with
  | nil => cases h
  | cons first urls ih =>
    rw [freshUrls] at h
    split at h
    · exact List.mem_cons_of_mem _ (ih h)
    · rcases List.mem_cons.mp h with rfl | h
      · exact List.mem_cons_self
      · exact List.mem_cons_of_mem _ (ih h)

/-- An address was known, or one is new that is spelled like it. -/
theorem mem_freshUrls_or_known {url : String} {known urls : List String} (h : url ∈ urls) :
    endpointKey url ∈ known ∨ endpointKey url ∈ (freshUrls known urls).map endpointKey := by
  induction urls generalizing known with
  | nil => cases h
  | cons first urls ih =>
    rw [freshUrls]
    split
    · next hknown =>
      rcases List.mem_cons.mp h with rfl | h
      · exact .inl hknown
      · exact ih h
    · rw [List.map_cons, List.mem_cons]
      rcases List.mem_cons.mp h with rfl | h
      · exact .inr (.inl rfl)
      · have hrest := @ih (endpointKey first :: known) h
        rcases hrest with hknown | hnew
        · rcases List.mem_cons.mp hknown with hfirst | hknown
          · exact .inr (.inl hfirst)
          · exact .inl hknown
        · exact .inr (.inr hnew)

theorem freshUrls_eq_nil {known urls : List String} (h : ∀ url ∈ urls, endpointKey url ∈ known) :
    freshUrls known urls = [] := by
  induction urls with
  | nil => rfl
  | cons first urls ih =>
    rw [freshUrls, if_pos (h first (List.mem_cons_self ..))]
    exact ih fun url hurl => h url (List.mem_cons_of_mem _ hurl)

namespace ExtraEndpoints

variable {extra extra' : ExtraEndpoints}

/-- The document with its chains in another order. -/
def along (extra : ExtraEndpoints) (t : Traversal) : ExtraEndpoints := ⟨t.order extra.chains⟩

/-- An address of a plain kind has a letter, so it is not blank. -/
theorem isBlankText_of_isPlain {url : String} (h : isPlain url = true) :
    Text.isBlankText url = false := by
  rw [isPlain, Bool.and_eq_true, Bool.or_eq_true, Text.startsWith, Text.startsWith,
    List.isPrefixOf_iff_prefix, List.isPrefixOf_iff_prefix] at h
  have hletter : 'h' ∈ url.toList := by
    rcases h.1 with hstart | hstart <;> exact hstart.subset (by decide)
  exact List.all_eq_false.mpr ⟨'h', hletter, by decide⟩

theorem mem_urlsFor {n : NetworkId} {url : String} :
    url ∈ extra.urlsFor n ↔
      ∃ c ∈ extra.chains, networkOf? c.1 = some n ∧ url ∈ plainUrls c.2 := by
  simp [urlsFor, and_assoc]

theorem isBlankText_of_mem_urlsFor {n : NetworkId} {url : String} (h : url ∈ extra.urlsFor n) :
    Text.isBlankText url = false := by
  obtain ⟨c, -, -, hurl⟩ := mem_urlsFor.mp h
  exact isBlankText_of_isPlain (List.mem_filter.mp hurl).2

end ExtraEndpoints

/-! ### Merging -/

namespace NetworkConfig

variable {extra extra' : ExtraEndpoints}

theorem isBlankText_of_mem_additions {net : NetworkConfig} {url : String}
    (h : url ∈ net.additions extra) : Text.isBlankText url = false :=
  ExtraEndpoints.isBlankText_of_mem_urlsFor (mem_of_mem_freshUrls h)

/-- **A network that a document was merged into lacks nothing of it**, in whatever order the chains
are gone through. -/
theorem additions_mergeExtra (hperm : extra'.chains.Perm extra.chains) (net : NetworkConfig) :
    (net.mergeExtra extra).additions extra' = [] := by
  refine freshUrls_eq_nil fun url hurl => ?_
  have hmem : url ∈ extra.urlsFor net.network := by
    obtain ⟨c, hc, hurl⟩ := ExtraEndpoints.mem_urlsFor.mp hurl
    exact ExtraEndpoints.mem_urlsFor.mpr ⟨c, hperm.mem_iff.mp hc, hurl⟩
  rw [mergeExtra, List.map_append, List.mem_append]
  exact mem_freshUrls_or_known hmem

theorem mergeExtra_eq_self {net : NetworkConfig} (h : net.additions extra = []) :
    net.mergeExtra extra = net := by
  rw [mergeExtra, h, List.append_nil]

end NetworkConfig

namespace Config

variable {c : Config}

theorem mergeExtra_again {extra extra' : ExtraEndpoints}
    (hperm : extra'.chains.Perm extra.chains) (c : Config) :
    (c.mergeExtra extra).1.mergeExtra extra' = ((c.mergeExtra extra).1, 0) := by
  have hnone : ∀ net ∈ (c.mergeExtra extra).1.networks, net.additions extra' = [] := by
    intro net hnet
    obtain ⟨net, -, rfl⟩ := List.mem_map.mp hnet
    exact NetworkConfig.additions_mergeExtra hperm net
  have hsame : (c.mergeExtra extra).1.networks.map (NetworkConfig.mergeExtra extra') =
      (c.mergeExtra extra).1.networks :=
    (List.map_congr_left fun net hnet =>
      NetworkConfig.mergeExtra_eq_self (hnone net hnet)).trans (List.map_id _)
  have hcount : ((c.mergeExtra extra).1.networks.flatMap fun net => net.additions extra') = [] :=
    List.flatMap_eq_nil_iff.mpr hnone
  rw [mergeExtra, hsame, hcount]
  rfl

theorem networksFault?_mergeExtra (extra : ExtraEndpoints) {seen : List NetworkId}
    {nets : List NetworkConfig} (h : networksFault? seen nets = none) :
    networksFault? seen (nets.map (NetworkConfig.mergeExtra extra)) = none := by
  induction nets generalizing seen with
  | nil => rfl
  | cons net nets ih =>
    obtain ⟨hnet, hnets⟩ := Option.or_eq_none_iff.mp h
    refine Option.or_eq_none_iff.mpr ⟨?_, ih hnets⟩
    simp only [networkFault?, NetworkConfig.mergeExtra, List.all_append] at hnet ⊢
    -- a network has an address afterwards if it had one before
    split at hnet
    · cases hnet
    · next hseen =>
      split at hnet
      · cases hnet
      · next hblank => simpa [hseen, hblank] using hnet

/-- **Merging spoils nothing.** -/
theorem validate_mergeExtra (extra : ExtraEndpoints) (h : c.validate = .ok ()) :
    (c.mergeExtra extra).1.validate = .ok () := by
  obtain ⟨hfirst, hquotes⟩ := Option.or_eq_none_iff.mp (fault?_of_validate h)
  obtain ⟨hzero, hnetworks⟩ := Option.or_eq_none_iff.mp hfirst
  have hfault : (c.mergeExtra extra).1.fault? = none :=
    Option.or_eq_none_iff.mpr ⟨Option.or_eq_none_iff.mpr
      ⟨hzero, networksFault?_mergeExtra extra hnetworks⟩, hquotes⟩
  rw [validate, hfault]

/-! ### The selector of a configuration -/

/-- The selector that is made of a configuration. -/
def selector (c : Config) : Selector := .ofLists (c.networks.map fun n => (n.network, n.endpoints))

theorem selector_ofConfig {σ : Type} (web : Web σ) (servers : σ) (c : Config) :
    (Relay.ofConfig web servers c).selector = c.selector := rfl

theorem nodup_of_networksFault? {seen : List NetworkId} {nets : List NetworkConfig}
    (h : networksFault? seen nets = none) :
    (nets.map NetworkConfig.network).Nodup ∧ ∀ net ∈ nets, net.network ∉ seen := by
  induction nets generalizing seen with
  | nil => simp
  | cons net nets ih =>
    obtain ⟨hnet, hnets⟩ := Option.or_eq_none_iff.mp h
    obtain ⟨hnodup, hnew⟩ := ih hnets
    have hfirst : net.network ∉ seen := by
      intro hseen
      rw [networkFault?, if_pos hseen] at hnet
      cases hnet
    refine ⟨List.nodup_cons.mpr ⟨?_, hnodup⟩, ?_⟩
    · rw [List.mem_map]
      rintro ⟨later, hlater, heq⟩
      exact hnew later hlater (heq ▸ List.mem_cons_self ..)
    · simp only [List.mem_cons, forall_eq_or_imp]
      exact ⟨hfirst, fun later hlater hseen => hnew later hlater (List.mem_cons_of_mem _ hseen)⟩

theorem nodup_of_validate (h : c.validate = .ok ()) :
    (c.networks.map NetworkConfig.network).Nodup :=
  (nodup_of_networksFault? (Option.or_eq_none_iff.mp (Option.or_eq_none_iff.mp
    (fault?_of_validate h)).1).2).1

/-- **No list overwrites another**: the candidates of a network are its own addresses. -/
theorem candidates_of_validate (h : c.validate = .ok ()) {net : NetworkConfig}
    (hnet : net ∈ c.networks) :
    c.selector.candidates net.network = net.endpoints.filter fun url => !Text.isBlankText url := by
  have hnodup : (c.networks.reverse.map NetworkConfig.network).Nodup := by
    rw [List.map_reverse, List.nodup_reverse]
    exact nodup_of_validate h
  have hfind := find?_eq_some_of_nodup hnodup (List.mem_reverse.mpr hnet)
  have hlisted := get?_listed Web.unreachable () c net.network
  rw [selector_ofConfig, hfind] at hlisted
  rw [Selector.candidates, hlisted]
  rfl

theorem candidates_ne_nil (h : c.validate = .ok ()) {net : NetworkConfig}
    (hnet : net ∈ c.networks) : c.selector.candidates net.network ≠ [] := by
  obtain ⟨urls, hurls, hne⟩ := exists_candidates Web.unreachable () h
    ((mem_networks_iff Web.unreachable () c net.network).mpr ⟨net, hnet, rfl⟩)
  rw [selector_ofConfig] at hurls
  rw [Selector.candidates, hurls]
  exact hne

theorem toProbe_of_candidates {s : Selector} {n : NetworkId} (h : s.candidates n ≠ []) :
    s.toProbe n = .ok (s.candidates n) := by
  rw [Selector.toProbe]
  split
  · next hnil => exact absurd hnil h
  · rfl

/-! ### Loading -/

/-- The configuration as it is read, before anything is merged in. -/
def read? (files : Files) (path : String) (environment : List (String × String)) : Option Config :=
  (files.settings? path).bind fun file => (file.layered environment).config?

/-- The extra list that a configuration names. -/
def extra? (files : Files) (c : Config) : Option ExtraEndpoints :=
  c.extraPath.bind fun path => (files.extra path).toOption

/-- `Config.complete`, where the chains are gone through in the order `t`. -/
def completeAlong (t : Traversal) (files : Files) (c : Config) : Loaded :=
  match c.extraPath with
  | none => { outcome := c.accept }
  | some path =>
    match files.extra path with
    | .error e => { outcome := .error (.refused e) }
    | .ok extra =>
      let (merged, n) := c.mergeExtra (extra.along t)
      { outcome := merged.accept, added := some (n, path) }

/-- `Config.load`, where the chains are gone through in the order `t`. -/
def loadAlong (t : Traversal) (files : Files) (path : String)
    (environment : List (String × String)) : Loaded :=
  match files.settings? path with
  | none => { outcome := .error (.unreadable path) }
  | some file =>
    match (file.layered environment).config? with
    | none => { outcome := .error (.unfit path) }
    | some c => c.completeAlong t files

theorem loadAlong_asListed : loadAlong .asListed = load := rfl

/-- What an extra list adds to a network, if there is one. -/
def addedTo (extra : Option ExtraEndpoints) (net : NetworkConfig) : List String :=
  (extra.map fun e => net.additions e).getD []

/-- A configuration can be run with that was read as `read`, and that this extra list was merged
into, if there was one. -/
structure Usable (read : Config) (extra : Option ExtraEndpoints) (config : Config) : Prop where
  /-- what was read has not changed but for the addresses that were added -/
  eq_read : config = { read with networks := read.networks.map fun net =>
    { net with endpoints := net.endpoints ++ addedTo extra net } }
  /-- it is accepted -/
  validate : config.validate = .ok ()
  /-- the list adds nothing more, in whatever order its chains are gone through -/
  again : ∀ e ∈ extra, ∀ e' : ExtraEndpoints, e'.chains.Perm e.chains →
    config.mergeExtra e' = (config, 0)
  /-- no network is there twice -/
  nodup : (config.networks.map NetworkConfig.network).Nodup
  /-- the selector has the configured networks, each once -/
  networks : config.selector.networks.Perm (config.networks.map NetworkConfig.network)
  /-- the candidates of each are its own addresses that are not blank, and what was added -/
  candidates : ∀ net ∈ read.networks, config.selector.candidates net.network =
    (net.endpoints.filter fun url => !Text.isBlankText url) ++ addedTo extra net
  /-- they are there to be probed, whatever was chosen so far -/
  toProbe : ∀ net ∈ config.networks, config.selector.candidates net.network ≠ [] ∧
    ∀ s : Selector, s.listed = config.selector.listed →
      s.toProbe net.network = .ok (config.selector.candidates net.network)

/-- What a network of a loaded configuration has. -/
theorem usable_of_validate {read config : Config} {extra : Option ExtraEndpoints}
    (hread : config = { read with networks := read.networks.map fun net =>
      { net with endpoints := net.endpoints ++ addedTo extra net } })
    (h : config.validate = .ok ())
    (hagain : ∀ e ∈ extra, ∀ e' : ExtraEndpoints, e'.chains.Perm e.chains →
      config.mergeExtra e' = (config, 0)) : Usable read extra config where
  eq_read := hread
  validate := h
  again := hagain
  nodup := nodup_of_validate h
  networks := by
    have hsorted : config.selector.listed.Sorted := Table.sorted_ofList _
    refine (List.perm_ext_iff_of_nodup hsorted.nodup_keys (nodup_of_validate h)).mpr fun n => ?_
    rw [List.mem_map]
    exact mem_networks_iff Web.unreachable () config n
  candidates := by
    intro net hnet
    have hmem : { net with endpoints := net.endpoints ++ addedTo extra net } ∈ config.networks := by
      rw [hread]
      exact List.mem_map.mpr ⟨net, hnet, rfl⟩
    have hadded : (addedTo extra net).filter (fun url => !Text.isBlankText url) =
        addedTo extra net := by
      refine List.filter_eq_self.mpr fun url hurl => ?_
      cases extra with
      | none => cases hurl
      | some e =>
        have hblank : Text.isBlankText url = false :=
          NetworkConfig.isBlankText_of_mem_additions (hurl : url ∈ net.additions e)
        simp [hblank]
    rw [candidates_of_validate h hmem, List.filter_append, hadded]
  toProbe := by
    intro net hnet
    have hne := candidates_ne_nil h hnet
    refine ⟨hne, fun s hs => ?_⟩
    have hsame : s.candidates net.network = config.selector.candidates net.network := by
      rw [Selector.candidates, Selector.candidates, hs]
    rw [← hsame] at hne ⊢
    exact toProbe_of_candidates hne

theorem accept_eq_ok {config : Config} (h : c.accept = .ok config) :
    config = c ∧ c.validate = .ok () := by
  rw [accept] at h
  split at h
  · next hvalid => exact ⟨(Except.ok.inj h).symm, hvalid⟩
  · cases h

theorem usable_of_completeAlong {t : Traversal} {files : Files} {read config : Config}
    (h : (read.completeAlong t files).outcome = .ok config) :
    Usable read ((read.extra? files).map fun e => e.along t) config := by
  rw [completeAlong] at h
  split at h
  · next hpath =>
    have hextra : read.extra? files = none := by rw [extra?, hpath]; rfl
    obtain ⟨rfl, hvalid⟩ := accept_eq_ok h
    rw [hextra]
    refine usable_of_validate ?_ hvalid (by simp)
    simp [addedTo]
  · next path hpath =>
    split at h
    · cases h
    · next extra hfile =>
      obtain ⟨rfl, hvalid⟩ := accept_eq_ok h
      have hextra : read.extra? files = some extra := by
        rw [extra?, hpath, Option.bind_some, hfile]
        rfl
      rw [hextra]
      refine usable_of_validate rfl hvalid fun e he e' hperm => ?_
      obtain rfl := Option.some.inj he
      exact mergeExtra_again hperm read

/-- **A configuration that is loaded can be run with.** In whatever order the chains of an extra list
are gone through: what is loaded is accepted, has nothing more to take from the list, and gives each
of its networks candidates, its own addresses and then those merged in. And merging makes no accepted
configuration unacceptable. -/
theorem loadAlong_usable :
    (∀ (t : Traversal) (files : Files) (path : String) (environment : List (String × String))
      (config : Config), (loadAlong t files path environment).outcome = .ok config →
      ∃ read : Config, read? files path environment = some read ∧
        Usable read ((read.extra? files).map fun e => e.along t) config) ∧
    ∀ (c : Config) (extra : ExtraEndpoints), c.validate = .ok () →
      (c.mergeExtra extra).1.validate = .ok () := by
  refine ⟨fun t files path environment config h => ?_, fun c extra => validate_mergeExtra extra⟩
  rw [loadAlong] at h
  split at h
  · cases h
  · next file hfile =>
    split at h
    · cases h
    · next read hread =>
      refine ⟨read, ?_, usable_of_completeAlong h⟩
      rw [read?, hfile]
      exact hread

/-- One network in the file, an address of it in a variable, and another one in an extra list that has
it twice. The chains are gone through from the last to the first, so it is spelled as under the last
one. -/
theorem loadAlong_usable_of_layers :
    let bytes (s : String) : List UInt8 := s.toList.map fun c => UInt8.ofNat c.toNat
    let backwards : Traversal := ⟨List.reverse, List.reverse_perm⟩
    let files : Files := .ofDirectory [("relay.yaml", bytes "networks: [\x7bnetwork_id: 1\x7d]"),
      ("more.json", bytes ("\x7b\"+1\":\x7b\"rpcs\":[\"http://B/\"]\x7d," ++
        "\"1\":\x7b\"rpcs\":[\"http://b\"]\x7d\x7d"))]
    let environment := [("ORACLE__NETWORKS[0]__ENDPOINTS[0]", "http://a"),
      ("ORACLE__EXTRA_RPCS_PATH", "more.json")]
    let config : Config := { networks := [{ network := 1, endpoints := ["http://a", "http://b"] }],
                             extraPath := some "more.json" }
    let again : ExtraEndpoints := ⟨[("1", [some "http://a/", some "http://c"])]⟩
    (loadAlong backwards files "relay.yaml" environment).outcome = .ok config ∧
      (∃ read : Config, read? files "relay.yaml" environment = some read ∧
        Usable read ((read.extra? files).map fun e => e.along backwards) config) ∧
      config.validate = .ok () ∧ (config.mergeExtra again).1.validate = .ok () := by
  intro bytes backwards files environment config again
  have hload : (loadAlong backwards files "relay.yaml" environment).outcome = .ok config := by
    decide +kernel
  have hvalid : config.validate = .ok () := by decide
  obtain ⟨hloaded, hmerged⟩ := loadAlong_usable
  exact ⟨hload, hloaded backwards files "relay.yaml" environment config hload, hvalid,
    hmerged config again hvalid⟩

end Config

end PriceRelay
