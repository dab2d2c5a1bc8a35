import CatalogSync.Proofs.Registry.Paging
import CatalogSync.Proofs.Text.Split
/-!
# The addresses of model cards

A model card is asked for with one request, at an address that is put together from the source, the
repository and the model. Blanks in them are encoded and nothing else is. So the address tells its
steps between slashes, but neither which of the three a step belongs to nor whether a blank was
written as one (`card_requests_eq_iff`). Cards whose repository and model are single steps and whose
three parts hold no encoded blank have an address each.
-/

namespace CatalogSync

namespace Registry

open Proc (Handler)

/-! ## §1 Encoded blanks -/

/-- A text with its blanks encoded. -/
def spaced (l : List Char) : List Char :=
  l.flatMap fun c => if c = ' ' then ['%', '2', '0'] else [c]

/-- The text holds an encoded blank. -/
def HoldsEncoded (l : List Char) : Prop := ['%', '2', '0'] <:+: l

instance (l : List Char) : Decidable (HoldsEncoded l) := decidable_of_iff _ Text.occursIn_iff

section

variable {c : Char} {l l' t : List Char}

theorem spaced_blank : spaced (' ' :: l) = '%' :: '2' :: '0' :: spaced l := rfl

theorem spaced_of_ne (hc : c ≠ ' ') : spaced (c :: l) = c :: spaced l := by
  rw [spaced, List.flatMap_cons, if_neg hc, List.singleton_append, spaced]

theorem spaced_ne_nil : spaced (c :: l) ≠ [] := by
  by_cases hc : c = ' '
  · rw [hc, spaced_blank]
    exact List.cons_ne_nil _ _
  · rw [spaced_of_ne hc]
    exact List.cons_ne_nil _ _

/-- A character that no encoded blank begins with stands for itself. -/
theorem eq_cons_of_spaced (hl : spaced l = c :: t) (hc : c ≠ '%') :
    ∃ rest, l = c :: rest ∧ spaced rest = t := by
  cases l with
  | nil => cases hl
  | cons d rest =>
    by_cases hd : d = ' '
    · rw [hd, spaced_blank] at hl
      cases hl
      exact absurd rfl hc
    · rw [spaced_of_ne hd] at hl
      obtain ⟨rfl, hrest⟩ := List.cons.inj hl
      exact ⟨rest, rfl, hrest⟩

/-- Where an encoded blank comes from something else than a blank, it was there before. -/
theorem holdsEncoded_of_spaced (hc : c ≠ ' ')
    (hl : spaced (c :: l) = '%' :: '2' :: '0' :: t) : HoldsEncoded (c :: l) := by
  rw [spaced_of_ne hc] at hl
  obtain ⟨rfl, htwo⟩ := List.cons.inj hl
  obtain ⟨rest, rfl, hzero⟩ := eq_cons_of_spaced htwo (by decide)
  obtain ⟨rest, rfl, -⟩ := eq_cons_of_spaced hzero (by decide)
  exact ⟨[], rest, rfl⟩

theorem HoldsEncoded.cons (h : HoldsEncoded l) : HoldsEncoded (c :: l) := List.infix_cons h

/-- Texts without encoded blanks are told apart after encoding. -/
theorem eq_of_spaced (hl : ¬ HoldsEncoded l) (hl' : ¬ HoldsEncoded l')
    (heq : spaced l = spaced l') : l = l' := by
  induction l generalizing l' with
  | nil =>
    cases l' with
    | nil => rfl
    | cons d rest' => exact absurd heq.symm spaced_ne_nil
  | cons c rest ih =>
    cases l' with
    | nil => exact absurd heq spaced_ne_nil
    | cons d rest' =>
      have hrest : spaced rest = spaced rest' → rest = rest' :=
        ih (mt HoldsEncoded.cons hl) (mt HoldsEncoded.cons hl')
      by_cases hc : c = ' ' <;> by_cases hd : d = ' '
      · subst hc hd
        rw [spaced_blank, spaced_blank] at heq
        rw [hrest (by simpa using heq)]
      · subst hc
        exact absurd (holdsEncoded_of_spaced hd heq.symm) hl'
      · subst hd
        exact absurd (holdsEncoded_of_spaced hc heq) hl
      · rw [spaced_of_ne hc, spaced_of_ne hd] at heq
        obtain ⟨rfl, htail⟩ := List.cons.inj heq
        rw [hrest htail]

theorem slash_notMem_spaced (hl : '/' ∉ l) : '/' ∉ spaced l := by
  rw [spaced, List.mem_flatMap]
  rintro ⟨c, hc, hslash⟩
  by_cases hblank : c = ' '
  · rw [if_pos hblank] at hslash
    exact absurd hslash (by decide)
  · rw [if_neg hblank, List.mem_singleton] at hslash
    exact hl (hslash ▸ hc)

end

/-! ## §2 Addresses -/

namespace CatalogOrigin

/-- The steps of the path of a model card, from the source on. -/
def steps (o : CatalogOrigin) : List (List Char) :=
  Text.pieces '/' (spaced o.source.toList) ++ "models".toList ::
    (Text.pieces '/' (spaced o.repository.toList) ++ Text.pieces '/' (spaced o.model.toList))

/-- An origin that can be told from the address that is handed to the HTTP client: the repository
and the model are single steps of its path, and no part holds an encoded blank of its own. What the
client makes of the address is left aside. -/
structure Plain (o : CatalogOrigin) : Prop where
  repository_step : '/' ∉ o.repository.toList
  model_step : '/' ∉ o.model.toList
  source_plain : ¬ HoldsEncoded o.source.toList
  repository_plain : ¬ HoldsEncoded o.repository.toList
  model_plain : ¬ HoldsEncoded o.model.toList

variable {o o' : CatalogOrigin}

/-- The last two steps are the repository and the model. -/
theorem Plain.steps_eq (ho : o.Plain) : o.steps =
    Text.pieces '/' (spaced o.source.toList) ++
      ["models".toList, spaced o.repository.toList, spaced o.model.toList] := by
  rw [steps, Text.pieces_eq_self (slash_notMem_spaced ho.repository_step),
    Text.pieces_eq_self (slash_notMem_spaced ho.model_step)]
  rfl

/-- The steps tell such origins apart. -/
theorem Plain.eq_of_steps (ho : o.Plain) (ho' : o'.Plain) (hsteps : o.steps = o'.steps) :
    o = o' := by
  rw [ho.steps_eq, ho'.steps_eq] at hsteps
  obtain ⟨hsource, hrest⟩ := List.append_inj' hsteps rfl
  simp only [List.cons.injEq, and_true, true_and] at hrest
  have hsource' := eq_of_spaced ho.source_plain ho'.source_plain (Text.pieces_inj.mp hsource)
  have hrepository := eq_of_spaced ho.repository_plain ho'.repository_plain hrest.1
  have hmodel := eq_of_spaced ho.model_plain ho'.model_plain hrest.2
  cases o
  cases o'
  simp_all [String.toList_inj]

end CatalogOrigin

namespace Client

variable {σ : Type} {c : Client} {o o' : CatalogOrigin}

theorem toList_cardAddress (c : Client) (o : CatalogOrigin) : (c.cardAddress o).toList =
    (c.endpoint ++ catalogPath ++ "/sources/").toList ++ (spaced o.source.toList ++ '/' ::
      ("models".toList ++ '/' :: (spaced o.repository.toList ++ '/' ::
        spaced o.model.toList))) := by
  simp [cardAddress, segment, spaced]

theorem pieces_cardAddress (o : CatalogOrigin) :
    Text.pieces '/' (spaced o.source.toList ++ '/' :: ("models".toList ++ '/' ::
      (spaced o.repository.toList ++ '/' :: spaced o.model.toList))) = o.steps := by
  rw [Text.pieces_append_separator, Text.pieces_append_separator, Text.pieces_append_separator,
    Text.pieces_eq_self (a := "models".toList) (by decide), List.singleton_append]
  rfl

/-- An address tells its steps, and nothing else. -/
theorem cardAddress_eq_iff : c.cardAddress o = c.cardAddress o' ↔ o.steps = o'.steps := by
  rw [← String.toList_inj, toList_cardAddress, toList_cardAddress, List.append_right_inj,
    ← @Text.pieces_inj '/', pieces_cardAddress, pieces_cardAddress]

/-- A model card takes one exchange, with a request to its address. -/
theorem trace_card (c : Client) (o : CatalogOrigin) (k : Handler Http.interface σ) (s : σ) :
    (c.card o).proc.trace k s =
      [⟨c.request (c.cardAddress o) [], (k (c.request (c.cardAddress o) []) s).1⟩] := by
  obtain ⟨judge, hproc, -⟩ := exists_proc_get (β := CatalogModel) c (c.cardAddress o) []
  rw [card, Task.proc_bind, Task.proc_outcome, hproc, Proc.bind_assoc, Proc.bind_call,
    Proc.trace_call]
  dsimp only [Proc.bind_done, Task.andThen]
  cases judge (k (c.request (c.cardAddress o) []) s).1 with
  | ok model => rfl
  | error f =>
    dsimp only
    split <;> rfl

/-- The requests for a model card. -/
def cardRequests (c : Client) (o : CatalogOrigin) (k : Handler Http.interface σ) (s : σ) :
    List Http.Request := ((c.card o).proc.trace k s).map Event.call

/-- Whatever a registry answers, the requests for two model cards are the same exactly when the
steps of their paths are, and those for two different plain origins differ. -/
theorem card_requests_eq_iff (c : Client) (o o' : CatalogOrigin) (k : Handler Http.interface σ)
    (s : σ) : (c.cardRequests o k s = c.cardRequests o' k s ↔ o.steps = o'.steps) ∧
      (o.Plain → o'.Plain → o ≠ o' → c.cardRequests o k s ≠ c.cardRequests o' k s) := by
  have hiff : c.cardRequests o k s = c.cardRequests o' k s ↔ o.steps = o'.steps := by
    rw [cardRequests, cardRequests, trace_card, trace_card, ← cardAddress_eq_iff (c := c)]
    simp [request]
  refine ⟨hiff, fun ho ho' hne hrequests => ?_⟩
  exact hne (ho.eq_of_steps ho' (hiff.mp hrequests))

/-- A registry that cannot be reached. -/
def unreached : Handler Http.interface Unit := fun _ _ => (none, ())

/-- Blanks and the slashes of a source do no harm. -/
theorem card_requests_eq_iff_spaced :
    registry.cardRequests ⟨"red hat/ai", "granite 3", "base"⟩ unreached () ≠
      registry.cardRequests ⟨"red hat", "granite 3", "base"⟩ unreached () := by
  have hplain : CatalogOrigin.Plain ⟨"red hat/ai", "granite 3", "base"⟩ := by
    constructor <;> decide
  have hplain' : CatalogOrigin.Plain ⟨"red hat", "granite 3", "base"⟩ := by
    constructor <;> decide
  exact (card_requests_eq_iff registry _ _ unreached ()).2 hplain hplain' (by decide)

/-- A slash at the end of the repository or at the beginning of the model: the two models are not
the same, and get one card. -/
theorem one_card_for_two_models :
    (⟨"rhoai", "granite/3", "base"⟩ : CatalogOrigin) ≠ ⟨"rhoai", "granite", "3/base"⟩ ∧
      registry.cardAddress ⟨"rhoai", "granite/3", "base"⟩ =
        registry.cardAddress ⟨"rhoai", "granite", "3/base"⟩ ∧
      registry.card ⟨"rhoai", "granite/3", "base"⟩ =
        registry.card ⟨"rhoai", "granite", "3/base"⟩ := by
  have haddress : registry.cardAddress ⟨"rhoai", "granite/3", "base"⟩ =
      registry.cardAddress ⟨"rhoai", "granite", "3/base"⟩ := by decide
  refine ⟨by decide, haddress, ?_⟩
  rw [card, card, haddress]

end Client

end Registry

end CatalogSync
