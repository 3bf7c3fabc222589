import PriceRelay.Proofs.Config.Load
import PriceRelay.Proofs.Setting.Variable
/-!
# What a single variable changes

A variable is laid over the file, and what it holds is read in place of what the file says. The rest
of its section stays, if the section is a table; a section that the file gives as a list is replaced,
and what the list said is lost.

* `Tunable` is a setting of the loops, of the cache or of the quote service,
  `Tunable.variableName` the variable that it goes by,
* `Setting.config?_layered` says what configuration is read once the variable is laid over the file,
* `Config.loadAlong_overridden_iff` says when loading gives the value of the variable and leaves
  every other setting as it was.
-/

namespace PriceRelay

/-! ### Settings that go by a variable -/

/-- A setting of the loops. -/
inductive MonitoringConfig.Field
  /-- seconds from one round of probes to the next -/
  | probeInterval
  /-- seconds that a probe is given -/
  | probeTimeout
  /-- seconds from one fetch cycle to the next -/
  | fetchInterval
  /-- how many fetches may run at once -/
  | maxConcurrent
  /-- how many times a failed call may be run again -/
  | maxRetries
  /-- milliseconds before it is run again -/
  | retryDelay
  /-- seconds from one report to the next -/
  | statusInterval

namespace MonitoringConfig.Field

/-- Its name in the file. -/
def key : Field → String
  | probeInterval => "probe_interval_secs"
  | probeTimeout => "probe_timeout_secs"
  | fetchInterval => "fetch_interval_secs"
  | maxConcurrent => "max_concurrent_fetches"
  | maxRetries => "max_retries"
  | retryDelay => "retry_delay_ms"
  | statusInterval => "status_interval_secs"

/-- What it is wanted as. -/
@[reducible]
def kind : Field → Setting.Kind
  | maxRetries => .word32
  | probeInterval | probeTimeout | fetchInterval | maxConcurrent | retryDelay | statusInterval =>
    .word64

/-- Change it. -/
def set : (f : Field) → f.kind.Value → MonitoringConfig → MonitoringConfig
  | probeInterval, v, m => { m with probeIntervalSecs := v }
  | probeTimeout, v, m => { m with probeTimeoutSecs := v }
  | fetchInterval, v, m => { m with fetchIntervalSecs := v }
  | maxConcurrent, v, m => { m with maxConcurrentFetches := v }
  | maxRetries, v, m => { m with maxRetries := v }
  | retryDelay, v, m => { m with retryDelayMs := v }
  | statusInterval, v, m => { m with statusIntervalSecs := v }

theorem set_inj {f : Field} {v w : f.kind.Value} {m m' : MonitoringConfig}
    (h : f.set v m = f.set w m') : v = w := by
  cases f <;> injection h

end MonitoringConfig.Field

/-- A setting of the quote service. -/
inductive QuoteConfig.Field
  /-- its address -/
  | endpoint
  /-- time that a request is given -/
  | timeout
  /-- how many times a request may be sent again -/
  | httpRetries

namespace QuoteConfig.Field

/-- Its name in the file. -/
def key : Field → String
  | endpoint => "endpoint"
  | timeout => "timeout_ms"
  | httpRetries => "http_retries"

/-- What it is wanted as. -/
@[reducible]
def kind : Field → Setting.Kind
  | endpoint => .text
  | timeout => .word64
  | httpRetries => .word32

/-- Change it. -/
def set : (f : Field) → f.kind.Value → QuoteConfig → QuoteConfig
  | endpoint, v, q => { q with endpoint := v }
  | timeout, v, q => { q with timeoutMs := v }
  | httpRetries, v, q => { q with httpRetries := v }

theorem set_inj {f : Field} {v w : f.kind.Value} {q q' : QuoteConfig}
    (h : f.set v q = f.set w q') : v = w := by
  cases f <;> injection h

end QuoteConfig.Field

/-- A setting that goes by a variable. -/
inductive Tunable
  /-- of the loops -/
  | monitoring (f : MonitoringConfig.Field)
  /-- the cap of the cache -/
  | maxSize
  /-- of the quote service -/
  | quotes (f : QuoteConfig.Field)

namespace Tunable

/-- The section it is in. -/
def group : Tunable → String
  | monitoring _ => "monitoring"
  | maxSize => "cache"
  | quotes _ => "pyth"

/-- Its name in the section. -/
def key : Tunable → String
  | monitoring f => f.key
  | maxSize => "max_size_bytes"
  | quotes f => f.key

/-- What it is wanted as. -/
@[reducible]
def kind : Tunable → Setting.Kind
  | monitoring f => f.kind
  | maxSize => .word64
  | quotes f => f.kind

/-- Change it; without a quote service there is nothing to change of one. -/
def set : (s : Tunable) → s.kind.Value → Config → Config
  | monitoring f, v, c => { c with monitoring := f.set v c.monitoring }
  | maxSize, v, c => { c with cache := { c.cache with maxSizeBytes := v } }
  | quotes f, v, c => { c with quotes := c.quotes.map (f.set v) }

/-- A configuration in which its section is as if nothing had been said in it. -/
def cleared : Tunable → Config → Config
  | monitoring _, c => { c with monitoring := {} }
  | maxSize, c => { c with cache := {} }
  | quotes _, c => { c with quotes := some {} }

/-- Whether a configuration has the setting: one of the quote service is there if the service is. -/
def Present : Tunable → Config → Prop
  | quotes _, c => c.quotes.isSome = true
  | _, _ => True

/-- The name of the variable that overrides it. -/
def variableName (s : Tunable) : String :=
  "ORACLE__" ++ capitals s.group ++ "__" ++ capitals s.key
where
  /-- a name in capitals -/
  capitals (name : String) : String := String.ofList (name.toList.map Char.toUpper)

/-- The settings of a file have its section as a list. -/
def ListedIn (s : Tunable) (file : Setting) : Prop :=
  ∃ items, Setting.lookup s.group (file.layered []).members = some (.list items)

/-- The file gives its section as a list. -/
def Listed (s : Tunable) (files : Files) (path : String) : Prop :=
  ∃ file, files.settings? path = some file ∧ s.ListedIn file

theorem set_inj {s : Tunable} {v w : s.kind.Value} {c c' : Config} (hc : s.Present c)
    (h : s.set v c = s.set w c') : v = w := by
  cases s with
  | monitoring f => exact MonitoringConfig.Field.set_inj (congrArg Config.monitoring h)
  | maxSize => exact congrArg (fun c => c.cache.maxSizeBytes) h
  | quotes f =>
    have hquotes : c.quotes.map (f.set v) = c'.quotes.map (f.set w) := congrArg Config.quotes h
    obtain ⟨q, hq⟩ := Option.isSome_iff_exists.mp hc
    rw [hq] at hquotes
    obtain ⟨q', -, heq⟩ := Option.map_eq_some_iff.mp hquotes.symm
    exact (QuoteConfig.Field.set_inj heq).symm

theorem present_cleared (s : Tunable) {c : Config} : s.Present (s.cleared c) := by
  cases s with
  | quotes f => exact rfl
  | _ => trivial

/-- **The name of its variable is the path to it.** -/
theorem variablePath?_variableName (s : Tunable) :
    Setting.variablePath? s.variableName = some ⟨s.group, [.member s.key]⟩ := by
  cases s with
  | monitoring f => cases f <;> decide +kernel
  | maxSize => decide +kernel
  | quotes f => cases f <;> decide +kernel

theorem lowerName_group (s : Tunable) : Setting.lowerName s.group = s.group := by
  cases s with
  | monitoring f => exact (by decide +kernel : Setting.lowerName "monitoring" = "monitoring")
  | maxSize => decide +kernel
  | quotes f => exact (by decide +kernel : Setting.lowerName "pyth" = "pyth")

theorem lowerName_key (s : Tunable) : Setting.lowerName s.key = s.key := by
  cases s with
  | monitoring f => cases f <;> decide +kernel
  | maxSize => decide +kernel
  | quotes f => cases f <;> decide +kernel

end Tunable

namespace Setting

/-! ### Trees -/

theorem lookup_putMember (name name' : String) (value : Setting) (ms : List (String × Setting)) :
    lookup name (putMember name' value ms) =
      if name' = name then some value else lookup name ms := by
  induction ms with
  | nil => rfl
  | cons m ms ih =>
    obtain ⟨n, v⟩ := m
    rw [putMember]
    split
    · next hn =>
      subst hn
      rw [lookup, lookup]
      split <;> rfl
    · next hn =>
      rw [lookup, lookup, ih]
      split
      · next hname =>
        rw [if_neg]
        rintro rfl
        exact hn hname
      · rfl

/-- What a variable holds is a scalar, so it is put in place of what was there. -/
theorem overlay_ofVariable (text : String) (old : Option Setting) :
    overlay (ofVariable text) old = ofVariable text := by
  have hscalar (ms : List (String × Setting)) : ofVariable text ≠ .table ms := by
    rw [ofVariable.eq_def]
    dsimp only
    split
    · nofun
    · split
      · nofun
      · split
        · nofun
        · split <;> nofun
  cases h : ofVariable text with
  | table ms => exact absurd h (hscalar ms)
  | _ => rfl

/-- Something is put into a table, which is made if there is none. -/
theorem exists_put_eq (root : Setting) (path : Path) (value : Setting) :
    ∃ ms, root.put path value = .table ms :=
  ⟨_, rfl⟩

/-- The tree of a file is a table. -/
theorem exists_layered_eq (file : Setting) : ∃ ms, file.layered [] = .table ms := by
  rw [layered, List.foldl_nil]
  induction file.members using List.reverseRecOn with
  | nil => exact ⟨[], rfl⟩
  | append_singleton ms m =>
    rw [List.foldl_append]
    exact exists_put_eq _ _ _

/-- **A variable is put into the table of its section**, which is made if there is none. -/
theorem layered_variable {file : Setting} {ms : List (String × Setting)}
    (h : file.layered [] = .table ms) (s : Tunable) (text : String) :
    file.layered [(s.variableName, text)] = .table (putMember s.group (.table (putMember s.key
      (ofVariable text) ((lookup s.group ms).getD .null).members)) ms) := by
  rw [layered, List.foldl_nil] at h
  rw [layered, List.foldl_cons, List.foldl_nil, h, putVariable, s.variablePath?_variableName]
  simp only [put, putAt, s.lowerName_group, s.lowerName_key, overlay_ofVariable, members,
    Option.getD_some]

/-! ### Reading a section -/

theorem monitoring_table (ms : List (String × Setting)) :
    format.monitoring (.table ms) =
      (Format.orElse 30 format.word64 (lookup "probe_interval_secs" ms)).bind fun a =>
      (Format.orElse 5 format.word64 (lookup "probe_timeout_secs" ms)).bind fun b =>
      (Format.orElse 30 format.word64 (lookup "fetch_interval_secs" ms)).bind fun c =>
      (Format.orElse 10 format.word64 (lookup "max_concurrent_fetches" ms)).bind fun d =>
      (Format.orElse 1 format.word32 (lookup "max_retries" ms)).bind fun e =>
      (Format.orElse 2000 format.word64 (lookup "retry_delay_ms" ms)).bind fun g =>
      (Format.orElse 15 format.word64 (lookup "status_interval_secs" ms)).bind fun i =>
        some ⟨a, b, c, d, e, g, i⟩ := rfl

/-- What is put into the table of the loops changes what it names, and nothing else. -/
theorem monitoring_putMember {ms : List (String × Setting)} {m : MonitoringConfig}
    (h : format.monitoring (.table ms) = some m) (f : MonitoringConfig.Field) (value : Setting) :
    format.monitoring (.table (putMember f.key value ms)) =
      (f.kind.read value).map fun v => f.set v m := by
  rw [monitoring_table] at h ⊢
  simp only [Option.bind_eq_some_iff, Option.some_inj] at h
  obtain ⟨a, ha, b, hb, c, hc, d, hd, e, he, g, hg, i, hi, rfl⟩ := h
  cases f <;>
    simp only [MonitoringConfig.Field.key, lookup_putMember, String.reduceEq, reduceIte, ha, hb, hc,
      hd, he, hg, hi, Option.bind_some] <;>
    exact Option.map_eq_bind.symm

/-- What is put into the table of the cache is its cap. -/
theorem cache_putMember (ms : List (String × Setting)) (value : Setting) :
    format.cache (.table (putMember "max_size_bytes" value ms)) =
      (format.word64 value).map fun v => ⟨v⟩ := by
  have htable (ms : List (String × Setting)) : format.cache (.table ms) =
      (Format.orElse (10 * 1024 * 1024) format.word64 (lookup "max_size_bytes" ms)).bind fun a =>
        some ⟨a⟩ := rfl
  rw [htable, lookup_putMember, if_pos rfl]
  exact Option.map_eq_bind.symm

theorem quotes_table (ms : List (String × Setting)) :
    format.quotes (.table ms) =
      (Format.orElse "https://hermes.pyth.network" format.text (lookup "endpoint" ms)).bind fun a =>
      (Format.orElse 5000 format.word64 (lookup "timeout_ms" ms)).bind fun b =>
      (Format.orElse 3 format.word32 (lookup "http_retries" ms)).bind fun c =>
      (Format.orElse [] (format.listOf format.quoteFeed) (lookup "feeds" ms)).bind fun d =>
        some ⟨a, b, c, d⟩ := rfl

/-- What is put into the table of the quote service changes what it names, and nothing else. -/
theorem quotes_putMember {ms : List (String × Setting)} {q : QuoteConfig}
    (h : format.quotes (.table ms) = some q) (f : QuoteConfig.Field) (value : Setting) :
    format.quotes (.table (putMember f.key value ms)) =
      (f.kind.read value).map fun v => f.set v q := by
  rw [quotes_table] at h ⊢
  simp only [Option.bind_eq_some_iff, Option.some_inj] at h
  obtain ⟨a, ha, b, hb, c, hc, d, hd, rfl⟩ := h
  cases f <;>
    simp only [QuoteConfig.Field.key, lookup_putMember, String.reduceEq, reduceIte, ha, hb, hc, hd,
      Option.bind_some] <;>
    exact Option.map_eq_bind.symm

/-- The members of a section are read like the section, unless it is a list: they are none then. -/
theorem read_members {ρ : Type} (read : Setting → Option ρ) {default r : ρ} {names : List String}
    {record : List (Option Setting) → Option ρ} (hread : ∀ v, read v = (v.fields names).bind record)
    (hempty : read (.table []) = some default) {section? : Option Setting}
    (h : Format.orElse default read section? = some r) :
    ((∀ items, section? ≠ some (.list items)) ∧
        read (.table (section?.getD .null).members) = some r) ∨
      (∃ items, section? = some (.list items)) ∧
        read (.table (section?.getD .null).members) = some default := by
  cases section? with
  | none =>
    obtain rfl := Option.some.inj h
    exact .inl ⟨nofun, hempty⟩
  | some v =>
    cases v with
    | table ms => exact .inl ⟨nofun, h⟩
    | list items => exact .inr ⟨⟨items, rfl⟩, hempty⟩
    | _ => exact nomatch (hread _).symm.trans h

theorem orElse_of_optional {ρ : Type} {read : Setting → Option ρ} {default r : ρ}
    {section? : Option Setting} (h : format.optional read section? = some (some r)) :
    Format.orElse default read section? = some r := by
  cases section? with
  | none => cases h
  | some v =>
    rw [Format.optional] at h
    split at h
    · cases h
    · obtain ⟨r', hread, heq⟩ := Option.map_eq_some_iff.mp h
      rw [← Option.some.inj heq]
      exact hread

/-! ### Reading a configuration -/

theorem config?_table (ms : List (String × Setting)) :
    config? (.table ms) =
      (Format.orElse [] (format.listOf format.network) (lookup "networks" ms)).bind fun networks =>
      (format.optional format.text (lookup "extra_rpcs_path" ms)).bind fun extraPath =>
      (format.optional format.quotes (lookup "pyth" ms)).bind fun quotes =>
      (Format.orElse {} format.monitoring (lookup "monitoring" ms)).bind fun monitoring =>
      (Format.orElse {} format.cache (lookup "cache" ms)).bind fun cache =>
        some ⟨networks, extraPath, quotes, monitoring, cache⟩ := rfl

section Put

variable {ms : List (String × Setting)} {c : Config}

/-- Each part of a configuration is read in its own section. -/
theorem config?_table_iff : config? (.table ms) = some c ↔
    Format.orElse [] (format.listOf format.network) (lookup "networks" ms) = some c.networks ∧
      format.optional format.text (lookup "extra_rpcs_path" ms) = some c.extraPath ∧
      format.optional format.quotes (lookup "pyth" ms) = some c.quotes ∧
      Format.orElse {} format.monitoring (lookup "monitoring" ms) = some c.monitoring ∧
      Format.orElse {} format.cache (lookup "cache" ms) = some c.cache := by
  rw [config?_table]
  simp only [Option.bind_eq_some_iff, Option.some_inj]
  constructor
  · rintro ⟨_, hnetworks, _, hpath, _, hquotes, _, hmonitoring, _, hcache, rfl⟩
    exact ⟨hnetworks, hpath, hquotes, hmonitoring, hcache⟩
  · rintro ⟨hnetworks, hpath, hquotes, hmonitoring, hcache⟩
    exact ⟨_, hnetworks, _, hpath, _, hquotes, _, hmonitoring, _, hcache, rfl⟩

variable (h : config? (.table ms) = some c)
include h

theorem config?_put_monitoring (v : Setting) : config? (.table (putMember "monitoring" v ms)) =
    (format.monitoring v).map fun m => { c with monitoring := m } := by
  obtain ⟨hnetworks, hpath, hquotes, -, hcache⟩ := config?_table_iff.mp h
  simp only [config?_table, lookup_putMember, String.reduceEq, reduceIte, hnetworks, hpath, hquotes,
    hcache, Option.bind_some]
  exact Option.map_eq_bind.symm

theorem config?_put_cache (v : Setting) : config? (.table (putMember "cache" v ms)) =
    (format.cache v).map fun cache => { c with cache := cache } := by
  obtain ⟨hnetworks, hpath, hquotes, hmonitoring, -⟩ := config?_table_iff.mp h
  simp only [config?_table, lookup_putMember, String.reduceEq, reduceIte, hnetworks, hpath, hquotes,
    hmonitoring, Option.bind_some]
  exact Option.map_eq_bind.symm

theorem config?_put_quotes (qs : List (String × Setting)) :
    config? (.table (putMember "pyth" (.table qs) ms)) =
      (format.quotes (.table qs)).map fun q => { c with quotes := some q } := by
  obtain ⟨hnetworks, hpath, -, hmonitoring, hcache⟩ := config?_table_iff.mp h
  have hthere : format.optional format.quotes (some (.table qs)) =
      (format.quotes (.table qs)).map some := rfl
  simp only [config?_table, lookup_putMember, String.reduceEq, reduceIte, hnetworks, hpath,
    hmonitoring, hcache, hthere, Option.bind_some]
  cases format.quotes (.table qs) <;> rfl

/-- **What configuration is read once a setting is put in its section**: the one that was read
before with the value of the setting in it. If the section was a list, the rest of it is lost. -/
theorem config?_putMember (s : Tunable) (hs : s.Present c) (value : Setting) :
    let section? := lookup s.group ms
    let laid := Setting.table (putMember s.group
      (.table (putMember s.key value (section?.getD .null).members)) ms)
    ((∀ items, section? ≠ some (.list items)) ∧
        laid.config? = (s.kind.read value).map fun v => s.set v c) ∨
      (∃ items, section? = some (.list items)) ∧
        laid.config? = (s.kind.read value).map fun v => s.set v (s.cleared c) := by
  obtain ⟨-, -, hquotes, hmonitoring, hcache⟩ := config?_table_iff.mp h
  cases s with
  | monitoring f =>
    have hput {m : MonitoringConfig}
        (hread : format.monitoring
          (.table ((lookup "monitoring" ms).getD .null).members) = some m) :
        config? (.table (putMember "monitoring" (.table (putMember f.key value
          ((lookup "monitoring" ms).getD .null).members)) ms)) =
            (f.kind.read value).map fun v => { c with monitoring := f.set v m } := by
      rw [config?_put_monitoring h, monitoring_putMember hread, Option.map_map]
      rfl
    exact (read_members format.monitoring (fun _ => rfl) rfl hmonitoring).imp
      (And.imp_right hput) (And.imp_right hput)
  | maxSize =>
    have hput : config? (.table (putMember "cache" (.table (putMember "max_size_bytes" value
        ((lookup "cache" ms).getD .null).members)) ms)) =
          (format.word64 value).map fun v => { c with cache := ⟨v⟩ } := by
      rw [config?_put_cache h, cache_putMember, Option.map_map]
      rfl
    exact (read_members format.cache (fun _ => rfl) rfl hcache).imp
      (And.imp_right fun _ => hput) (And.imp_right fun _ => hput)
  | quotes f =>
    obtain ⟨q, hq⟩ := Option.isSome_iff_exists.mp hs
    have hput {q : QuoteConfig}
        (hread : format.quotes (.table ((lookup "pyth" ms).getD .null).members) = some q) :
        config? (.table (putMember "pyth" (.table (putMember f.key value
          ((lookup "pyth" ms).getD .null).members)) ms)) =
            (f.kind.read value).map fun v => { c with quotes := some (f.set v q) } := by
      rw [config?_put_quotes h, quotes_putMember hread, Option.map_map]
      rfl
    have hthere : Format.orElse {} format.quotes (lookup "pyth" ms) = some q :=
      orElse_of_optional (hquotes.trans (congrArg some hq))
    have hset (v : f.kind.Value) :
        Tunable.set (.quotes f) v c = { c with quotes := some (f.set v q) } := by
      rw [Tunable.set, hq]
      rfl
    simp only [hset]
    exact (read_members format.quotes (fun _ => rfl) rfl hthere).imp
      (And.imp_right hput) (And.imp_right hput)

end Put

/-- **What configuration is read once a variable is laid over the file.** -/
theorem config?_layered {file : Setting} {c : Config} (h : (file.layered []).config? = some c)
    (s : Tunable) (hs : s.Present c) (text : String) :
    (¬ s.ListedIn file ∧ (file.layered [(s.variableName, text)]).config? =
        (s.kind.read (ofVariable text)).map fun v => s.set v c) ∨
      s.ListedIn file ∧ (file.layered [(s.variableName, text)]).config? =
        (s.kind.read (ofVariable text)).map fun v => s.set v (s.cleared c) := by
  obtain ⟨ms, hms⟩ := exists_layered_eq file
  rw [hms] at h
  rw [Tunable.ListedIn, hms, layered_variable hms, not_exists]
  exact config?_putMember h s hs (ofVariable text)

end Setting

/-! ### Loading -/

namespace Config

/-- A change of what does not depend on the networks and the extra list. -/
def changed (quotes : Option QuoteConfig → Option QuoteConfig)
    (monitoring : MonitoringConfig → MonitoringConfig) (cache : CacheConfig → CacheConfig)
    (c : Config) : Config :=
  { c with
    quotes := quotes c.quotes
    monitoring := monitoring c.monitoring
    cache := cache c.cache }

/-- **Merging and changing do not meet**, so it does not matter which is first. -/
theorem completeAlong_changed {t : Traversal} {files : Files} {c config : Config}
    (h : (c.completeAlong t files).outcome = .ok config)
    (quotes : Option QuoteConfig → Option QuoteConfig)
    (monitoring : MonitoringConfig → MonitoringConfig) (cache : CacheConfig → CacheConfig) :
    ((c.changed quotes monitoring cache).completeAlong t files).outcome =
      (config.changed quotes monitoring cache).accept := by
  have hpath : (c.changed quotes monitoring cache).extraPath = c.extraPath := rfl
  rw [completeAlong] at h
  rw [completeAlong, hpath]
  split at h
  · obtain ⟨rfl, -⟩ := accept_eq_ok h
    rfl
  · next path _ =>
    dsimp only
    split at h
    · cases h
    · obtain ⟨rfl, -⟩ := accept_eq_ok h
      rfl

theorem completeAlong_set {t : Traversal} {files : Files} {c config : Config}
    (h : (c.completeAlong t files).outcome = .ok config) (s : Tunable) (v : s.kind.Value) :
    ((s.set v c).completeAlong t files).outcome = (s.set v config).accept := by
  cases s with
  | monitoring f => exact completeAlong_changed h id (f.set v) id
  | maxSize => exact completeAlong_changed h id id fun cache => { cache with maxSizeBytes := v }
  | quotes f => exact completeAlong_changed h (Option.map (f.set v)) id id

theorem completeAlong_set_cleared {t : Traversal} {files : Files} {c config : Config}
    (h : (c.completeAlong t files).outcome = .ok config) (s : Tunable) (v : s.kind.Value) :
    ((s.set v (s.cleared c)).completeAlong t files).outcome =
      (s.set v (s.cleared config)).accept := by
  cases s with
  | monitoring f => exact completeAlong_changed h id (fun _ => f.set v {}) id
  | maxSize => exact completeAlong_changed h id id fun _ => ⟨v⟩
  | quotes f => exact completeAlong_changed h (fun _ => some (f.set v {})) id id

theorem accept_eq_ok_iff {c config : Config} (hvalid : config.validate = .ok ()) :
    c.accept = .ok config ↔ c = config := by
  refine ⟨fun h => (accept_eq_ok h).1.symm, ?_⟩
  rintro rfl
  rw [accept, hvalid]

theorem present_of_completeAlong {t : Traversal} {files : Files} {c config : Config}
    (h : (c.completeAlong t files).outcome = .ok config) {s : Tunable} (hs : s.Present config) :
    s.Present c := by
  cases s with
  | quotes f =>
    rw [(usable_of_completeAlong h).eq_read] at hs
    exact hs
  | _ => trivial

/-- What loading comes to once a variable is laid over `base`, which becomes `left` once it is
completed. No two values make the same configuration, so the value can be told from the outcome. -/
theorem loadAlong_laid_iff {t : Traversal} {files : Files} {path : String} {file : Setting}
    (hfile : files.settings? path = some file) {s : Tunable} {v : s.kind.Value}
    {base left config : Config} (hvalid : (s.set v config).validate = .ok ())
    (hlaid : (file.layered [(s.variableName, s.kind.written v)]).config? =
      (s.kind.read (Setting.ofVariable (s.kind.written v))).map fun w => s.set w base)
    (hleft : ∀ w, ((s.set w base).completeAlong t files).outcome = (s.set w left).accept)
    (hs : s.Present left) :
    (loadAlong t files path [(s.variableName, s.kind.written v)]).outcome = .ok (s.set v config) ↔
      s.kind.ReadBack v ∧ s.set v left = s.set v config := by
  rw [← Setting.Kind.read_written_iff, loadAlong, hfile]
  dsimp only
  rw [hlaid]
  cases s.kind.read (Setting.ofVariable (s.kind.written v)) with
  | none =>
    refine iff_of_false (fun h => ?_) fun h => ?_
    · cases h
    · cases h.1
  | some w =>
    rw [Option.map_some, Option.some_inj]
    dsimp only
    rw [hleft, accept_eq_ok_iff hvalid]
    constructor
    · intro heq
      obtain rfl := Tunable.set_inj hs heq
      exact ⟨rfl, heq⟩
    · rintro ⟨rfl, heq⟩
      exact heq

/-- **When a variable changes one setting, and nothing else**: if its value comes back from the text
that it is written as, and if no other setting is lost with a section that the file gives as a list.
Both loads go through the chains of an extra list in the same order, whatever it is. -/
theorem loadAlong_overridden_iff (t : Traversal) (files : Files) (path : String) {config : Config}
    (hload : (loadAlong t files path []).outcome = .ok config) (s : Tunable)
    (hs : s.Present config) (v : s.kind.Value) (hvalid : (s.set v config).validate = .ok ()) :
    (loadAlong t files path [(s.variableName, s.kind.written v)]).outcome = .ok (s.set v config) ↔
      s.kind.ReadBack v ∧
        (s.Listed files path → s.set v (s.cleared config) = s.set v config) := by
  rw [loadAlong] at hload
  split at hload
  · cases hload
  next file hfile =>
  split at hload
  · cases hload
  next read hread =>
  have hlisted : s.Listed files path ↔ s.ListedIn file := by
    constructor
    · rintro ⟨file', hfile', hlist⟩
      obtain rfl := Option.some.inj (hfile.symm.trans hfile')
      exact hlist
    · exact fun hlist => ⟨file, hfile, hlist⟩
  obtain ⟨hno, hlaid⟩ | ⟨hlist, hlaid⟩ := Setting.config?_layered hread s
    (present_of_completeAlong hload hs) (s.kind.written v)
  · -- the section is a table or missing, and all else in it stays
    rw [loadAlong_laid_iff hfile hvalid hlaid (completeAlong_set hload s) hs, hlisted]
    exact and_congr_right fun _ => iff_of_true rfl fun hlist => absurd hlist hno
  · -- the section is a list, and what it said is lost
    rw [loadAlong_laid_iff hfile hvalid hlaid (completeAlong_set_cleared hload s)
      s.present_cleared, hlisted]
    exact and_congr_right fun _ => ⟨fun heq _ => heq, fun heq => heq hlist⟩

/-- The address of the quote service, in a file that only says that there is one. -/
theorem loadAlong_overridden_of_address :
    let bytes (s : String) : List UInt8 := s.toList.map fun c => UInt8.ofNat c.toNat
    let files : Files := .ofDirectory [("relay.yaml", bytes "pyth: \x7b\x7d")]
    let config : Config := { quotes := some {} }
    let address : Tunable := .quotes .endpoint
    (loadAlong .asListed files "relay.yaml" []).outcome = .ok config ∧ address.Present config ∧
      (address.set "http://a" config).validate = .ok () ∧
      (loadAlong .asListed files "relay.yaml" [("ORACLE__PYTH__ENDPOINT", "http://a")]).outcome =
        .ok { quotes := some { endpoint := "http://a" } } := by
  intro bytes files config address
  have hload : (loadAlong .asListed files "relay.yaml" []).outcome = .ok config := by
    decide +kernel
  have hvalid : (address.set "http://a" config).validate = .ok () := by decide
  have hkeeps : Setting.KeepsSpelling "http://a" :=
    Setting.keepsSpelling_of_mem (c := ':') (by decide) (by decide)
  have hname : address.variableName = "ORACLE__PYTH__ENDPOINT" := by decide
  have hset := (loadAlong_overridden_iff .asListed files "relay.yaml" hload address rfl "http://a"
    hvalid).mpr ⟨hkeeps, fun _ => rfl⟩
  rw [hname] at hset
  exact ⟨hload, rfl, hvalid, hset⟩

/-- Three values that a variable does not give, or not alone: a number that is rounded, a text that
is spelled anew, and one setting of a section that the file gives as a list. -/
theorem overrides_missed :
    let bytes (s : String) : List UInt8 := s.toList.map fun c => UInt8.ofNat c.toNat
    let files : Files := .ofDirectory [("empty.yaml", bytes "\x7b\x7d"),
      ("quotes.yaml", bytes "pyth: \x7b\x7d"), ("listed.yaml", bytes "monitoring: [5]")]
    let capped : Config := { cache := ⟨9223372036854775809⟩ }
    let addressed : Config := { quotes := some { endpoint := "1e3" } }
    let retrying : Config := { monitoring := { probeIntervalSecs := 5, maxRetries := 2 } }
    ((load files "empty.yaml" []).outcome = .ok {} ∧ capped.validate = .ok () ∧
      (load files "empty.yaml" [("ORACLE__CACHE__MAX_SIZE_BYTES", "9223372036854775809")]).outcome =
        .ok { cache := ⟨9223372036854775808⟩ }) ∧
    ((load files "quotes.yaml" []).outcome = .ok { quotes := some {} } ∧
      addressed.validate = .ok () ∧
      (load files "quotes.yaml" [("ORACLE__PYTH__ENDPOINT", "1e3")]).outcome =
        .ok { quotes := some { endpoint := "1000" } }) ∧
    ((load files "listed.yaml" []).outcome =
        .ok { monitoring := { probeIntervalSecs := 5 } } ∧ retrying.validate = .ok () ∧
      (load files "listed.yaml" [("ORACLE__MONITORING__MAX_RETRIES", "2")]).outcome =
        .ok { monitoring := { maxRetries := 2 } }) := by
  decide +kernel

end Config

end PriceRelay
