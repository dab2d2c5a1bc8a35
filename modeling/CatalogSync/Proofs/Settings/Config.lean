import CatalogSync.Proofs.Naming.NormalForm
import CatalogSync.Settings.Config
/-!
# Configurations that can be relied on

Settings lead to a configuration whenever a storage address or a host is given, that is, holds more
than blanks. What the configuration holds keeps to its rules (`Config.Valid`), so nothing has to be
checked again behind it. One rule has an exception: slashes at the end of a storage address are taken
away after it was found not to be blank, so that nothing is left of an address of slashes alone
(`ofSettings_checked`).
-/

namespace CatalogSync

/-! ## §1 Texts on one line -/

/-- No line break stands in a text. -/
structure OneLine (s : String) : Prop where
  noReturn : '\r' ∉ s.toList
  noNewline : '\n' ∉ s.toList

theorem OneLine.of_subset {s t : String} (hs : OneLine s) (hst : t.toList ⊆ s.toList) :
    OneLine t where
  noReturn h := hs.noReturn (hst h)
  noNewline h := hs.noNewline (hst h)

theorem OneLine.append {s t : String} (hs : OneLine s) (ht : OneLine t) : OneLine (s ++ t) := by
  constructor
  · simp [hs.noReturn, ht.noReturn]
  · simp [hs.noNewline, ht.noNewline]

namespace Name

theorem WellFormed.oneLine {s : String} (hs : WellFormed s) : OneLine s where
  noReturn h := absurd (hs.spelled.tidy.characters _ h) (by decide)
  noNewline h := absurd (hs.spelled.tidy.characters _ h) (by decide)

theorem oneLine_stripLineBreaks (s : String) : OneLine (stripLineBreaks s) := by
  constructor
  · simp [stripLineBreaks]
  · simp [stripLineBreaks]

end Name

namespace Text

theorem toList_trim_subset (s : String) : (trim s).toList ⊆ s.toList := by
  intro c hc
  rw [trim, String.toList_ofList] at hc
  exact mem_of_mem_trimBoth hc

theorem toList_trimEndOf_subset (c : Char) (s : String) : (trimEndOf c s).toList ⊆ s.toList := by
  intro d hd
  rw [trimEndOf, String.toList_ofList] at hd
  exact mem_of_mem_dropEndWhile hd

/-- The pieces of a text hold its characters. -/
theorem subset_of_mem_pieces {separator : Char} {l piece : List Char}
    (hpiece : piece ∈ pieces separator l) : piece ⊆ l := by
  induction l generalizing piece with
  | nil => simp_all [pieces]
  | cons c rest ih =>
    rw [pieces] at hpiece
    split at hpiece
    · rcases List.mem_cons.mp hpiece with rfl | hpiece
      · exact List.nil_subset _
      · exact List.subset_cons_of_subset _ (ih hpiece)
    · obtain ⟨first, more, hpieces⟩ := List.exists_cons_of_ne_nil (pieces_ne_nil separator rest)
      rw [hpieces] at hpiece ih
      rcases List.mem_cons.mp hpiece with rfl | hpiece
      · exact List.cons_subset_cons _ (ih List.mem_cons_self)
      · exact List.subset_cons_of_subset _ (ih (List.mem_cons_of_mem _ hpiece))

theorem toList_subset_of_mem_split {separator : Char} {s part : String}
    (hpart : part ∈ split separator s) : part.toList ⊆ s.toList := by
  obtain ⟨piece, hpiece, rfl⟩ := List.mem_map.mp hpart
  rw [String.toList_ofList]
  exact subset_of_mem_pieces hpiece

theorem getLast?_trimEndOf (c : Char) (s : String) : (trimEndOf c s).toList.getLast? ≠ some c := by
  rw [trimEndOf, String.toList_ofList]
  intro hlast
  exact absurd (getLast?_dropEndWhile hlast) (by simp)

theorem trimEndOf_eq_empty_iff {c : Char} {s : String} :
    trimEndOf c s = "" ↔ ∀ d ∈ s.toList, d = c := by
  rw [trimEndOf, ← String.toList_inj, String.toList_ofList]
  show dropEndWhile (· == c) s.toList = [] ↔ _
  rw [dropEndWhile_eq_nil_iff]
  simp only [beq_iff_eq]

end Text

/-! ## §2 Route hints -/

namespace RouteHint

/-- Both parts of a hint are there, and neither holds a line break. -/
structure Complete (hint : RouteHint) : Prop where
  ns : hint.ns ≠ ""
  name : hint.name ≠ ""
  nsOneLine : OneLine hint.ns
  nameOneLine : OneLine hint.name

theorem defaultNamespace_ne_empty : defaultNamespace ≠ "" := by decide

theorem oneLine_defaultNamespace : OneLine defaultNamespace := ⟨by decide, by decide⟩

theorem complete_of_parse? {raw : String} {hint : RouteHint} (hraw : OneLine raw)
    (hhint : parse? raw = some hint) : hint.Complete := by
  unfold parse? at hhint
  cases htrimmed : Text.trimmed? raw with
  | none =>
    rw [htrimmed] at hhint
    cases hhint
  | some s =>
    obtain ⟨hs, hne⟩ := Text.trimmed?_eq_some_iff.mp htrimmed
    have hsubset : s.toList ⊆ raw.toList := hs ▸ Text.toList_trim_subset raw
    simp only [htrimmed, Text.splitOnce] at hhint
    cases hcut : Text.cut ':' s.toList with
    | none =>
      rw [hcut] at hhint
      cases hhint
      exact ⟨defaultNamespace_ne_empty, hne, oneLine_defaultNamespace, hraw.of_subset hsubset⟩
    | some parts =>
      obtain ⟨before, after⟩ := parts
      obtain ⟨hparts, -⟩ := Text.cut_eq_some_iff.mp hcut
      rw [hcut] at hhint
      simp only [Option.map_some] at hhint
      split at hhint
      · cases hhint
      · next hfilled =>
        cases hhint
        rw [Bool.or_eq_true, not_or] at hfilled
        rw [hparts] at hsubset
        refine ⟨by simpa using hfilled.1, by simpa using hfilled.2, hraw.of_subset ?_,
          hraw.of_subset ?_⟩
        · rw [String.toList_ofList]
          exact fun c hc => hsubset (List.mem_append_left _ hc)
        · rw [String.toList_ofList]
          exact fun c hc => hsubset (List.mem_append_right _ (List.mem_cons_of_mem _ hc))

theorem complete_of_mem_parseList {raw : String} (hraw : OneLine raw) :
    ∀ hint ∈ parseList raw, hint.Complete := by
  intro hint hhint
  obtain ⟨entry, hentry, hparse⟩ := List.mem_filterMap.mp hhint
  exact complete_of_parse? (hraw.of_subset (Text.toList_subset_of_mem_split hentry)) hparse

end RouteHint

namespace Config

/-! ## §3 Settings -/

/-- A setting holds more than blanks. -/
def Given (value : Option String) : Prop :=
  ∃ text, value = some text ∧ ∃ c ∈ text.toList, Text.isBlank c = false

theorem clean_eq_none_iff {value : Option String} : clean value = none ↔ ¬ Given value := by
  cases value with
  | none => simp [clean, Given]
  | some text =>
    -- Line breaks are blanks, so it is of no account that they are left out.
    have hbreak : Text.isBlank '\r' = true ∧ Text.isBlank '\n' = true := by decide
    rw [clean, Option.bind_some, Text.trimmed?_eq_none_iff, Text.trim, ← String.toList_inj,
      String.toList_ofList, Name.stripLineBreaks, String.toList_ofList]
    show Text.trimBoth Text.isBlank _ = [] ↔ _
    rw [Text.trimBoth_eq_nil_iff]
    constructor
    · rintro hblank ⟨text', htext, c, hc, hkept⟩
      cases htext
      have hne : c ≠ '\r' ∧ c ≠ '\n' := by
        constructor <;> rintro rfl <;> simp_all
      rw [hblank c (List.mem_filter.mpr ⟨hc, by simpa using hne⟩)] at hkept
      cases hkept
    · intro hnone c hc
      by_contra hkept
      exact hnone ⟨text, rfl, c, (List.mem_filter.mp hc).1, by simpa using hkept⟩

theorem clean_eq_some {value : Option String} {text : String} (htext : clean value = some text) :
    text ≠ "" ∧ OneLine text := by
  obtain ⟨raw, -, htrimmed⟩ := Option.bind_eq_some_iff.mp htext
  obtain ⟨rfl, hne⟩ := Text.trimmed?_eq_some_iff.mp htrimmed
  exact ⟨hne, (Name.oneLine_stripLineBreaks raw).of_subset (Text.toList_trim_subset _)⟩

theorem nanos_interval {value : Option String} {fallback : Span} (hfallback : 0 < fallback.nanos) :
    0 < (interval value fallback).nanos := by
  unfold interval
  split
  · split
    · exact hfallback
    · next hne => exact Nat.pos_of_ne_zero hne
  · exact hfallback

theorem positive_pos {value : Option Nat} {fallback : Nat} (hfallback : 0 < fallback) :
    0 < positive value fallback := by
  unfold positive
  split
  · split
    · exact hfallback
    · next hne => exact Nat.pos_of_ne_zero hne
  · exact hfallback

/-! ## §4 Addresses -/

/-- An address of a server: a path can be put behind it. -/
structure Address (url : String) : Prop where
  ne_empty : url ≠ ""
  noSlash : url.toList.getLast? ≠ some '/'
  oneLine : OneLine url

theorem oneLine_trimEndOf {s : String} (c : Char) (hs : OneLine s) :
    OneLine (Text.trimEndOf c s) :=
  hs.of_subset (Text.toList_trimEndOf_subset c s)

theorem address_of_mem_addresses {raw url : String} (hraw : OneLine raw)
    (hurl : url ∈ addresses raw) : Address url := by
  obtain ⟨entry, hentry, hkept⟩ := List.mem_filterMap.mp hurl
  obtain ⟨rfl, hne⟩ := Text.nonEmpty?_eq_some_iff.mp hkept
  have hentry : OneLine entry := hraw.of_subset (Text.toList_subset_of_mem_split hentry)
  exact ⟨hne, Text.getLast?_trimEndOf '/' _,
    oneLine_trimEndOf '/' (hentry.of_subset (Text.toList_trim_subset entry))⟩

/-- The address of the storage tier at a host. -/
theorem address_of_host {host : String} (hhost : OneLine host) :
    Address ("http://" ++ host ++ ":" ++ Natural.render storagePort) := by
  have hport : Natural.render storagePort = "7070" := by decide
  have hends : OneLine "http://" ∧ OneLine ":" ∧ OneLine "7070" :=
    ⟨⟨by decide, by decide⟩, ⟨by decide, by decide⟩, ⟨by decide, by decide⟩⟩
  rw [hport]
  refine ⟨?_, ?_, ((hends.1.append hhost).append hends.2.1).append hends.2.2⟩
  · rw [← String.toList_inj.ne]
    simp
  · rw [String.toList_append, List.getLast?_append]
    simp

theorem locateStorage_eq_error_iff {s : Settings} {f : Fault} :
    locateStorage s = .error f ↔
      (¬ Given s.storageUrl ∧ ¬ Given s.podIp) ∧
        f = .configuration
          "neither STORAGE_URL nor POD_IP is set; cannot locate the storage tier" := by
  rw [← clean_eq_none_iff, ← clean_eq_none_iff]
  unfold locateStorage
  split
  · next hurl => simp [hurl]
  · next hurl hhost => simp [hurl, hhost]
  · next hurl hhost => simp [hurl, hhost, eq_comm]

/-- The address of the storage tier is empty for an address of slashes alone, and otherwise it is an
address. -/
theorem address_of_locateStorage {s : Settings} {url : String} (hurl : locateStorage s = .ok url) :
    OneLine url ∧ url.toList.getLast? ≠ some '/' ∧
      (url = "" ↔ ∃ given, clean s.storageUrl = some given ∧ ∀ c ∈ given.toList, c = '/') := by
  unfold locateStorage at hurl
  split at hurl
  · next given hgiven =>
    cases hurl
    refine ⟨oneLine_trimEndOf '/' (clean_eq_some hgiven).2, Text.getLast?_trimEndOf '/' given, ?_⟩
    rw [Text.trimEndOf_eq_empty_iff, hgiven]
    simp
  · next host hnone hhost =>
    cases hurl
    have haddress := address_of_host (clean_eq_some hhost).2
    refine ⟨haddress.oneLine, haddress.noSlash, ?_⟩
    simp [haddress.ne_empty, hnone]
  · cases hurl

/-! ## §5 Configurations -/

/-- The texts that a configuration holds. -/
def texts (c : Config) : List String :=
  c.defaultOwner :: c.defaultLifecycle :: c.storageUrl ::
    (c.registryToken.toList ++ c.registryUrls ++ c.routeHints.flatMap fun h => [h.ns, h.name])

/-- What a configuration keeps to. -/
structure Valid (c : Config) : Prop where
  pollingInterval : 0 < c.pollingInterval.nanos
  httpTimeout : 0 < c.httpTimeout.nanos
  maxConcurrentReconciles : 0 < c.maxConcurrentReconciles
  defaultOwner : Name.WellFormed c.defaultOwner
  defaultLifecycle : Name.WellFormed c.defaultLifecycle
  routeHints : ∀ hint ∈ c.routeHints, hint.Complete
  registryUrls : ∀ url ∈ c.registryUrls, Address url
  -- A path can be put behind the address.
  storageUrl : c.storageUrl.toList.getLast? ≠ some '/'
  oneLine : ∀ text ∈ c.texts, OneLine text

theorem nanos_ofSecs_pos {n : Nat} (hn : 0 < n) : 0 < (Span.ofSecs n).nanos := by
  rw [Span.ofSecs, Span.nanos_ofNanos, Span.maxNanos]
  omega

/-- The values that stand in for an owner and a lifecycle are names. -/
theorem sanitized_defaults :
    Name.sanitize? CatalogSync.defaultOwner = some CatalogSync.defaultOwner ∧
      Name.sanitize? CatalogSync.defaultLifecycle = some CatalogSync.defaultLifecycle := by
  decide

theorem complete_of_mem_hints {value : Option String} {hint : RouteHint}
    (hhint : hint ∈ ((clean value).map RouteHint.parseList).getD []) : hint.Complete := by
  cases htext : clean value with
  | none => simp [htext] at hhint
  | some text =>
    rw [htext] at hhint
    exact RouteHint.complete_of_mem_parseList (clean_eq_some htext).2 hint hhint

theorem address_of_mem_urls {value : Option String} {url : String}
    (hurl : url ∈ ((clean value).map addresses).getD []) : Address url := by
  cases htext : clean value with
  | none => simp [htext] at hurl
  | some text =>
    rw [htext] at hurl
    exact address_of_mem_addresses (clean_eq_some htext).2 hurl

/-- Only the storage tier can be missing. -/
theorem ofSettings_eq_error_iff {s : Settings} {f : Fault} :
    ofSettings s = .error f ↔ locateStorage s = .error f := by
  unfold ofSettings
  cases locateStorage s <;> simp [bind, Except.bind, pure, Except.pure]

theorem valid_of_ofSettings {s : Settings} {c : Config} (hc : ofSettings s = .ok c) :
    locateStorage s = .ok c.storageUrl ∧ c.Valid := by
  cases hurl : locateStorage s with
  | error f =>
    rw [ofSettings_eq_error_iff.mpr hurl] at hc
    cases hc
  | ok url =>
    obtain ⟨honeLine, hnoSlash, -⟩ := address_of_locateStorage hurl
    have howner : Name.WellFormed (((clean s.defaultOwner).bind Name.sanitize?).getD
        CatalogSync.defaultOwner) := Name.wellFormed_getD ⟨_, sanitized_defaults.1⟩
    have hlifecycle : Name.WellFormed (((clean s.defaultLifecycle).bind Name.sanitize?).getD
        CatalogSync.defaultLifecycle) := Name.wellFormed_getD ⟨_, sanitized_defaults.2⟩
    simp only [ofSettings, hurl, bind, Except.bind, pure, Except.pure, Except.ok.injEq] at hc
    subst hc
    refine ⟨rfl, ?_⟩
    constructor
    case pollingInterval => exact nanos_interval (nanos_ofSecs_pos (by decide))
    case httpTimeout => exact nanos_ofSecs_pos (positive_pos (by decide))
    case maxConcurrentReconciles => exact positive_pos (by decide)
    case defaultOwner => exact howner
    case defaultLifecycle => exact hlifecycle
    case routeHints => exact fun hint hhint => complete_of_mem_hints hhint
    case registryUrls => exact fun url' hurl' => address_of_mem_urls hurl'
    case storageUrl => exact hnoSlash
    case oneLine =>
      intro text htext
      simp only [texts, List.mem_cons, List.mem_append, List.mem_flatMap, Option.mem_toList] at htext
      rcases htext with rfl | rfl | rfl | (htoken | hlisted) | ⟨hint, hhint, rfl | rfl | hnil⟩
      · exact howner.oneLine
      · exact hlifecycle.oneLine
      · exact honeLine
      · exact (clean_eq_some htoken).2
      · exact (address_of_mem_urls hlisted).oneLine
      · exact (complete_of_mem_hints hhint).nsOneLine
      · exact (complete_of_mem_hints hhint).nameOneLine
      · cases hnil

/-- Settings are refused exactly when neither a storage address nor a host is given, and the fault
says so. What they lead to otherwise is valid, and it has a storage address unless the one that is
given consists of slashes alone. -/
theorem ofSettings_checked (s : Settings) :
    (∀ f, ofSettings s = .error f ↔
      (¬ Given s.storageUrl ∧ ¬ Given s.podIp) ∧
        f = .configuration
          "neither STORAGE_URL nor POD_IP is set; cannot locate the storage tier") ∧
    ∀ c, ofSettings s = .ok c →
      c.Valid ∧
        (c.storageUrl = "" ↔
          ∃ url, clean s.storageUrl = some url ∧ ∀ d ∈ url.toList, d = '/') := by
  constructor
  · intro f
    rw [ofSettings_eq_error_iff, locateStorage_eq_error_iff]
  · intro c hc
    obtain ⟨hurl, hvalid⟩ := valid_of_ofSettings hc
    exact ⟨hvalid, (address_of_locateStorage hurl).2.2⟩

/-- Settings with blanks, line breaks, needless slashes and entries that are of no use. -/
def untidySettings : Settings where
  format := some "JsonArrayFormat\n"
  pollingInterval := some "0s"
  defaultOwner := some " ml/team\r\n"
  defaultLifecycle := some "!!!"
  registryRoutes := some "odh:registry, :x, gateway"
  registryUrl := some " https://a// , /,https://b\n"
  registryToken := some "\r\n"
  storageUrl := some " http://storage:7070/// "
  maxConcurrentReconciles := some 0
  httpTimeoutSecs := some 0

theorem ofSettings_checked_untidy :
    ∃ c, ofSettings untidySettings = .ok c ∧ c.Valid ∧
      c.storageUrl = "http://storage:7070" ∧ c.registryUrls = ["https://a", "https://b"] := by
  have hread : (ofSettings untidySettings).toOption.map (fun c => (c.storageUrl, c.registryUrls)) =
      some ("http://storage:7070", ["https://a", "https://b"]) := by
    decide +kernel
  cases hc : ofSettings untidySettings with
  | error f => simp [hc, Except.toOption] at hread
  | ok c =>
    rw [hc] at hread
    simp only [Except.toOption, Option.map_some, Option.some.injEq, Prod.mk.injEq] at hread
    exact ⟨c, rfl, ((ofSettings_checked untidySettings).2 c hc).1, hread⟩

/-- An address of one slash is given, and the configuration has no storage address. -/
theorem ofSettings_slash : ∃ c, ofSettings { storageUrl := some "/" } = .ok c ∧ c.storageUrl = "" :=
  ⟨_, rfl, by decide⟩

end Config

end CatalogSync
