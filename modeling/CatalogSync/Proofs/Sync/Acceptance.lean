import CatalogSync.Proofs.Catalog.Encoding
import CatalogSync.Proofs.Sync.Synchronisation
/-!
# What is published is accepted and can be fetched

An entry that is published reaches the service as one write. If the service reads a document of this
size, it takes the write, whatever the key, the marker, the document and the model card are: it
answers with 200 or 201, and says what became of the write. Unless a newer record is there, fetching
the key then gives the document as it was written, with the type of its format
(`publish_accepted`).
-/

namespace CatalogSync

open Proc (Handler)

/-! ## §1 Fetching -/

namespace Storage

open Router (Endpoint Incoming asked?)
open Service (Backed Reliable)

variable {σ : Type} {h : Handler Service.interface σ} {store : σ → Store} {s : σ}

/-- The request for the document under a key. -/
def fetchIncoming (key : ImportKey) : Incoming where
  method := .get
  target := fetchPath ++ "?" ++ Text.Form.encode [(keyParameter, key.text)]

theorem asked?_fetchIncoming (key : ImportKey) :
    asked? (fetchIncoming key) = some (.fetch (some key.text)) := by
  have hfound : (Endpoint.all.find? fun e => e.path == fetchPath) = some .fetch := by decide
  have hsplit : Http.Target.split (fetchIncoming key).target =
      ⟨fetchPath, Text.Form.encode [(keyParameter, key.text)]⟩ :=
    Http.Target.split_query (by rfl) (by decide) (by decide) _
  rw [Router.asked?_eq, hsplit, hfound]
  unfold Router.askedAt? Router.request
  simp only
  rw [Client.parameters_keySet]
  rfl

/-- A record that is there is answered with its document. -/
theorem reply_fetchIncoming (backed : Backed h store) (reliable : Reliable h) {key : ImportKey}
    {record : StoredRecord} (hrecord : (store s).get? key = some record) :
    Router.reply h (fetchIncoming key) s =
      { status := 200, contentType := some record.contentType, body := record.body } := by
  have hfetch : Service.fetch (some key.text) = Service.stored key >>= fun record =>
      pure (.document record.contentType record.body) := by
    unfold Service.fetch
    rw [Service.requiredKey_eq, Service.keyOf_text]
    rfl
  have hstored : Service.Ends h (Service.stored key) s fun r _ _ => r = .ok record := by
    refine Service.Ends.storage backed (fun found s' hfound _ => ?_)
      fun _ _ hfail _ => absurd reliable hfail
    obtain rfl : some record = found := hrecord.symm.trans hfound
    exact Service.Ends.pure rfl
  have hends : Service.Ends h (Service.fetch (some key.text)) s fun r _ _ =>
      r = .ok (.document record.contentType record.body) := by
    rw [hfetch]
    refine Service.Ends.bind hstored (fun found s' told hfound => ?_) fun _ _ _ h => nomatch h
    cases hfound
    exact Service.Ends.pure rfl
  have hresult : ((Service.answer (.fetch (some key.text))).run h s).1 =
      .ok (.document record.contentType record.body) := hends
  rw [Router.reply_of_asked (asked?_fetchIncoming key), hresult]
  rfl

end Storage

/-! ## §2 Publishing -/

namespace Sync

open Catalog (mediaTypeOf)
open Storage (Client Depot Store fetchIncoming)
open Storage.Router (next reply response)
open Storage.Service (Backed Reliable Wrote recordOf)

variable {σ τ ρ α : Type}

/-- A procedure that makes no calls to the service leaves it as it is. -/
theorem run_beside_of_calls {p : Proc interface α}
    (hp : p.Calls fun c : Call => c.isStorage = false) (outside : Handler interface τ)
    (service : Handler Storage.Publishing.interface ρ) (s : τ × ρ) :
    (p.run (beside outside service) s).2.2 = s.2 := by
  induction p generalizing s with
  | done a => rfl
  | call c resume ih =>
    rw [Proc.run_call, ih _ (hp.2 _), beside_of_not_storage outside service hp.1]

/-- Publishing ends with what the service answers to the write. -/
theorem run_publish {H : Handler interface σ} (style : Style) {sources : Catalog.Sources}
    {entry : Catalog.Entry} {endpoint : Option String} {x : σ} {card : Option String}
    (hentry : sources.entry = .ok entry)
    (hcard : ((cardOf entry endpoint).proc.run H x).1 = .ok card) :
    ∃ y, y = H (.storage (.upsert entry.key entry.provenance (bodyOf style entry card)))
        ((cardOf entry endpoint).proc.run H x).2 ∧
      (publish style sources endpoint).proc.run H x =
        (Except.map (fun _ => entry.key) y.1, y.2) := by
  refine ⟨_, rfl, ?_⟩
  rw [publish, Task.run_bind, hentry]
  show (cardOf entry endpoint >>= _).proc.run H x = _
  rw [Task.run_bind, hcard]
  generalize ((cardOf entry endpoint).proc.run H x).2 = x'
  show (storage _ >>= _).proc.run H x' = _
  have hsend : ∀ c, (storage c).proc.run H x' = H (.storage c) x' := fun _ => rfl
  rw [Task.run_bind, hsend]
  cases (H (.storage (.upsert entry.key entry.provenance (bodyOf style entry card))) x').1 <;> rfl

/-- What becomes of a write, by the record that was there. -/
def outcomeAfter (marker : Nat) : Option Storage.StoredRecord → Storage.WriteOutcome
  | none => .created
  | some old => if marker < old.lastUpdate then .ignored else .updated

/-- The record that an entry makes, but for whether the importer knows it. -/
def entryRecord (style : Style) (entry : Catalog.Entry) (card : Option String) (imported : Bool) :
    Storage.StoredRecord where
  body := entry.encode style.format
  lastUpdate := entry.lastUpdate
  provenance := entry.provenance
  modelCard := card.bind Text.nonEmpty?
  imported := imported

theorem recordOf_bodyOf (style : Style) (entry : Catalog.Entry) (card : Option String)
    (imported : Bool) :
    recordOf (bodyOf style entry card) entry.lastUpdate entry.provenance imported =
      entryRecord style entry card imported := by
  have hcard : Text.nonEmpty? (card.getD "") = card.bind Text.nonEmpty? := by
    cases card <;> rfl
  unfold recordOf bodyOf entryRecord
  rw [hcard]

/-- A write that is carried out leaves its record unless it is ignored, and what becomes of it
depends on the record that was there. -/
theorem outcome_of_wrote {h : Handler Storage.Service.interface ρ} {key : ImportKey}
    {record : Bool → Storage.StoredRecord} {marker : Nat} {before after : Store}
    {outcome : Storage.WriteOutcome} {told : List (Storage.Service.Notice × Bool)}
    (hw : Wrote h key record before (.ok outcome) after told)
    (hmarker : ∀ imported, (record imported).lastUpdate = marker) :
    outcome = outcomeAfter marker (before.get? key) ∧
      (outcome ≠ .ignored → ∃ imported, after.get? key = some (record imported)) := by
  cases hw with
  | ignored hold holder =>
    rw [hmarker] at holder
    rw [hold]
    exact ⟨(if_pos holder).symm, fun h => absurd rfl h⟩
  | created hnew htold =>
    rw [hnew]
    exact ⟨rfl, fun _ => ⟨_, by rw [SortedMap.get?_insert, if_pos rfl]⟩⟩
  | updated hold hnotOlder htold =>
    rw [hmarker] at hnotOlder
    rw [hold]
    exact ⟨(if_neg (Nat.not_lt.mpr hnotOlder)).symm,
      fun _ => ⟨_, by rw [SortedMap.get?_insert, if_pos rfl]⟩⟩

/-- An entry that the sources make is published beside a service whose backend does not fail. Its
model card is what the registry answers when it is asked for it. If the service reads a document of
this size, publishing sends one write and succeeds. The service answers it with 201 or 200, and the
publisher is told that the record was created when there was none, that the write was ignored when a
newer record was there, and that the record was updated otherwise. Unless the write was ignored, the
record is that of the entry and of this card, and fetching the key gives its document with the type
of the format. -/
theorem publish_accepted {h : Handler Storage.Service.interface ρ} {store : ρ → Store}
    (backed : Backed h store) (reliable : Reliable h) (c : Client) (outside : Handler interface τ)
    (style : Style) {sources : Catalog.Sources} {entry : Catalog.Entry}
    (hentry : sources.entry = .ok entry) (endpoint : Option String) (t : τ) (s : ρ) :
    let bridge := beside outside (c.service h)
    let card := cardFrom outside t endpoint entry
    (bodyOf style entry card).Fits →
      let write := c.upsertIncoming entry.key entry.provenance (bodyOf style entry card)
      let outcome := outcomeAfter entry.lastUpdate ((store s).get? entry.key)
      upserts ((publish style sources endpoint).proc.trace bridge (t, s)) =
          [⟨entry.key, entry.provenance, bodyOf style entry card⟩] ∧
        ((publish style sources endpoint).proc.run bridge (t, s)).1 = .ok entry.key ∧
        ((publish style sources endpoint).proc.run bridge (t, s)).2.2 = next h write s ∧
        c.service h (.upsert entry.key entry.provenance (bodyOf style entry card)) s =
          (.ok outcome, next h write s) ∧
        reply h write s = response (.ok (.written entry.key outcome)) ∧
        (reply h write s).status = (if outcome = .created then 201 else 200) ∧
        (outcome ≠ .ignored →
          (∃ imported, (store (next h write s)).get? entry.key =
            some (entryRecord style entry card imported)) ∧
          reply h (fetchIncoming entry.key) (next h write s) =
            { status := 200, contentType := some (mediaTypeOf style.format),
              body := entry.encode style.format }) := by
  intro bridge card hfits write outcome
  -- The service has no part in what the registry answers.
  have hcard : ((cardOf entry endpoint).proc.run bridge (t, s)).1 = .ok card :=
    run_cardOf bridge entry endpoint (t, s)
  have hsound : Storage.Service.targetOf (some entry.key.text) (bodyOf style entry card) =
      .ok (entry.key, entry.lastUpdate) := by
    obtain ⟨hsound, hmarker⟩ := sound_ofEntry style hentry card
    rw [Upsert.Sound, hmarker] at hsound
    simpa only [Upsert.ofEntry] using hsound
  obtain ⟨given, hwrote, hreply, hservice⟩ := Client.service_upsert_written (c := c) (s := s)
    entry.provenance backed reliable hfits hsound
  obtain ⟨rfl, hrecord⟩ := outcome_of_wrote hwrote fun _ => rfl
  obtain ⟨y, hy, hpublish⟩ := run_publish style hentry hcard
  have hbefore : ((cardOf entry endpoint).proc.run bridge (t, s)).2.2 = s :=
    run_beside_of_calls (calls_cardOf (fun _ _ => rfl) entry endpoint) outside (c.service h) (t, s)
  have hanswer : (y.1, y.2.2) = (Except.ok outcome, next h write s) := by
    rw [hy]
    refine Eq.trans ?_ hservice
    show c.service h _ ((cardOf entry endpoint).proc.run bridge (t, s)).2.2 = _
    rw [hbefore]
  refine ⟨?_, ?_, ?_, hservice, hreply, ?_, fun houtcome => ?_⟩
  · rw [upserts_publish, hentry]
    rfl
  · rw [hpublish, (Prod.mk.inj hanswer).1]
    rfl
  · rw [hpublish]
    exact (Prod.mk.inj hanswer).2
  · rw [hreply]
    show (response (.ok (.written entry.key outcome))).status = _
    cases outcome <;> rfl
  · obtain ⟨imported, hstored⟩ := hrecord houtcome
    rw [recordOf_bodyOf] at hstored
    refine ⟨⟨imported, hstored⟩, ?_⟩
    rw [Storage.reply_fetchIncoming backed reliable hstored,
      Catalog.contentType_encode entry style.format rfl]
    rfl

/-- The sources of a deployment that no registry knows. -/
def fraudSources : Catalog.Sources := .ofDeployment {} fraud none

def fraudEntry : Catalog.Entry := fraudSources.entryAt fraudKey

/-- Entries in JSON. -/
def jsonStyle : Style := { format := .jsonArray }

/-- Whether a write in JSON fits is seen from its characters, which need not be made into texts and
read back from them. -/
theorem fits_json_iff (entry : Catalog.Entry) (card : Option String) :
    (bodyOf jsonStyle entry card).Fits ↔
      (Text.Utf8.encodeChars ('\x7b' :: (Json.quote "body" ++ ':' :: '"' ::
        ((Text.Base64.encodeChars (Text.Utf8.encodeChars (Json.printValue .pretty 0
            (Catalog.ModelDocument.ofParts entry.model entry.server)))).flatMap Json.escapeChar ++
          '"' :: (Json.printMembers .compact 1
            [("lastUpdateTimeSinceEpoch", .str (Natural.render entry.lastUpdate)),
              ("modelCardKey", .str (if card.isSome then entry.key.text else "")),
              ("modelCard", .str (card.getD ""))] ++ ['\x7d']))))).length ≤
        Storage.Router.bodyLimit := by
  have hdocument : entry.encode .jsonArray = Text.Utf8.encodeChars (Json.printValue .pretty 0
      (Catalog.ModelDocument.ofParts entry.model entry.server)) := by
    rw [Catalog.Entry.encode, Catalog.encodeParts, Json.pretty, Text.Utf8.encode,
      String.toList_ofList]
  rw [Storage.PostBody.Fits, Storage.PostBody.toJson, Storage.Payload.toJson, Json.compact,
    Text.Utf8.encode, String.toList_ofList, Json.printValue, Json.printValue,
    Json.quote.eq_1 (Text.Base64.encode _), Text.Base64.encode, String.toList_ofList, bodyOf,
    jsonStyle, hdocument]
  simp only [Json.Layout.compact, List.nil_append, List.cons_append, List.append_assoc,
    List.append_nil]

theorem fits_fraud : (bodyOf jsonStyle fraudEntry none).Fits := by
  rw [fits_json_iff]
  decide +kernel

/-- A registry whose only version has a model card. -/
def described : Registry.Snapshot :=
  { carded with cards := SortedMap.empty.insert "hub/digits/mnist" "# Digits" }

def describedAlone : World := { cardedAlone with registry := described.reply }

/-- The sources of the version, which no deployment serves. -/
def describedSources : Catalog.Sources :=
  describedAlone.versionSources jsonStyle "https://registry" mnistModel cardedVersion

def describedEntry : Catalog.Entry := describedSources.entryAt mnistKey

theorem fits_described : (bodyOf jsonStyle describedEntry (some "# Digits")).Fits := by
  rw [fits_json_iff]
  decide +kernel

theorem publish_accepted_described :
    let bridge := beside describedAlone.surroundings (storageClient.service Depot.handler)
    let run := (publish jsonStyle describedSources (some "https://registry")).proc.run bridge
      ((), leftBehind)
    describedSources.entry = .ok describedEntry ∧
      describedEntry.cardOrigin = some ⟨"hub", "digits", "mnist"⟩ ∧
      run.1 = .ok mnistKey ∧
      (reply Depot.handler (storageClient.upsertIncoming mnistKey .registry
        (bodyOf jsonStyle describedEntry (some "# Digits"))) leftBehind).status = 201 ∧
      (∃ imported, run.2.2.store.get? mnistKey = some
        { body := describedEntry.encode .jsonArray
          lastUpdate := 0
          provenance := .registry
          modelCard := some "# Digits"
          imported }) ∧
      reply Depot.handler (fetchIncoming mnistKey) run.2.2 =
        { status := 200, contentType := some "application/json",
          body := describedEntry.encode .jsonArray } := by
  dsimp only
  have hentry : describedSources.entry = .ok describedEntry :=
    Catalog.Sources.entry_of_key (by rfl)
  have haccepted := publish_accepted Depot.backed_handler Depot.reliable_handler storageClient
    describedAlone.surroundings jsonStyle hentry (some "https://registry") () leftBehind
  have hcard : cardFrom describedAlone.surroundings () (some "https://registry") describedEntry =
      some "# Digits" := by decide +kernel
  have hnew : leftBehind.store.get? describedEntry.key = none := by decide +kernel
  rw [hcard, hnew] at haccepted
  obtain ⟨-, hkey, hstore, -, -, hstatus, hstored⟩ := haccepted fits_described
  obtain ⟨⟨imported, hrecord⟩, hfetched⟩ := hstored nofun
  have hmarker : describedEntry.lastUpdate = 0 := by decide +kernel
  have hprovenance : describedEntry.provenance = .registry := by decide +kernel
  have hnonEmpty : (some "# Digits").bind Text.nonEmpty? = some "# Digits" := by decide +kernel
  rw [← hstore] at hrecord hfetched
  rw [hprovenance] at hstatus
  rw [entryRecord, hmarker, hprovenance, hnonEmpty] at hrecord
  exact ⟨hentry, by decide +kernel, hkey, hstatus, ⟨imported, hrecord⟩, hfetched⟩

end Sync

end CatalogSync
