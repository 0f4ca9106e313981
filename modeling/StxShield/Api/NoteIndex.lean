import StxShield.Api.Commitments
import StxShield.Api.NoteTable

/-!
# The note index

The writers of a row come in any order and repeat what they have written.  What they leave
depends on the order for notes that only the registry's events name: if the owner comes
first, the row keeps the owner's stand-ins.
-/

namespace StxShield.BlockIndexer

open Library Sdk

/-! ## Operations -/

/-- What is processed: an event of a transaction, or the registration of an owner. -/
inductive NoteOperation where
  | event (ev : DecodedEvent) (txid : String)
  | register (wallet commitment ciphertext : String)

namespace NoteOperation

def process (table : NoteTable) : NoteOperation → NoteTable
  | .event ev txid => (noteWrites ev txid).foldl NoteWrite.stored table
  | .register wallet commitment ciphertext =>
      table.registerWalletNote wallet commitment ciphertext

end NoteOperation

/-- What an operation tells of a commitment. -/
inductive News where
  | output (row : NoteRow)
  | leaf (txid : String) (leafIndex : Option Int)
  | owner (wallet ciphertext : String)
  deriving DecidableEq

/-- The news of one commitment, in a write of the indexer. -/
def NoteWrite.newsOf (commitment : String) : NoteWrite → Option News
  | .output written row => if written = commitment then some (.output row) else none
  | .leaf written txid leafIndex =>
      if written = commitment then some (.leaf txid leafIndex) else none

/-- In an operation. -/
def NoteOperation.newsOf (commitment : String) : NoteOperation → List News
  | .event ev txid => (noteWrites ev txid).filterMap (NoteWrite.newsOf commitment)
  | .register wallet written ciphertext =>
      if written = commitment then [.owner wallet ciphertext] else []

/-- The rows after a list of operations, on an empty table. -/
def processAll (operations : List NoteOperation) : NoteTable :=
  operations.foldl NoteOperation.process ∅

/-- What happens to one row. -/
def News.apply (stored : Option StoredNote) : News → Option StoredNote
  | .output row => some (confirmed row stored)
  | .leaf txid leafIndex => some (leafFilled txid leafIndex stored)
  | .owner wallet ciphertext => some (owned wallet ciphertext stored)

/-! ## What is known of a commitment -/

/-- The news so far, and whether the owner came first. -/
structure Known where
  output : Option NoteRow
  leaf : Option (String × Option Int)
  owner : Option (String × String)
  early : Bool
  deriving DecidableEq

namespace Known

def nothing : Known := { output := none, leaf := none, owner := none, early := false }

def add (known : Known) : News → Known
  | .output row => { known with output := some row }
  | .leaf txid leafIndex => { known with leaf := some (txid, leafIndex) }
  | .owner wallet ciphertext =>
      { known with
        owner := some (wallet, ciphertext)
        early := known.early || (known.output.isNone && known.leaf.isNone) }

/-- The columns of a commitment that is known: those of a pool's event if there is one, else
those of the first writer. -/
def columns (known : Known) : NoteRow :=
  match known.output with
  | some row => row
  | none =>
      let leafIndex := known.leaf.bind Prod.snd
      if known.early = true then
        { root := some "", txid := "", leafIndex := leafIndex, type := "shield", assetId := none }
      else
        { root := none, txid := (known.leaf.map Prod.fst).getD "", leafIndex := leafIndex,
          type := "note", assetId := none }

def render (known : Known) : Option StoredNote :=
  if known.output.isNone ∧ known.leaf.isNone ∧ known.owner.isNone then none
  else
    some
      { toNoteRow := known.columns
        status := if known.output.isSome ∨ known.leaf.isSome then .confirmed else .pending
        wallet := known.owner.map Prod.fst
        ciphertext := known.owner.map Prod.snd
        spent := false }

/-- The owner came first only if there is one, and else more is known. -/
structure Sound (known : Known) : Prop where
  early : known.early = true → known.owner.isSome = true
  late : known.early = false → known.owner.isSome = true →
    known.output.isSome = true ∨ known.leaf.isSome = true

/-- News that agrees with what is known: a commitment is registered once, and a pool's event
tells the place that the registry's tells. -/
def Fits (known : Known) : News → Prop
  | .output row => ∀ registered ∈ known.leaf, row.leafIndex = registered.2
  | .leaf txid leafIndex =>
      (∀ row ∈ known.output, row.leafIndex = leafIndex) ∧
        ∀ registered ∈ known.leaf, registered = (txid, leafIndex)
  | .owner _ _ => True

theorem Sound.nothing : nothing.Sound where
  early h := by cases h
  late _ h := by cases h

theorem Sound.add {known : Known} (h : known.Sound) (news : News) : (known.add news).Sound := by
  cases news with
  | output row => exact ⟨h.early, fun _ _ => .inl rfl⟩
  | leaf txid leafIndex => exact ⟨h.early, fun _ _ => .inr rfl⟩
  | owner wallet ciphertext =>
      refine ⟨fun _ => rfl, fun hlate _ => ?_⟩
      simp only [Known.add, Bool.or_eq_false_iff, Bool.and_eq_false_iff,
        Option.isNone_eq_false_iff] at hlate
      exact hlate.2

/-- A row shows what is known, whatever comes next. -/
theorem render_add {known : Known} (hsound : known.Sound) {news : News} (hfits : known.Fits news) :
    (known.add news).render = news.apply known.render := by
  obtain ⟨output, leaf, owner, early⟩ := known
  cases news with
  | output row =>
      cases output with
      | some old => rfl
      | none =>
          cases leaf with
          | some registered => rfl
          | none =>
              cases owner with
              | some account => rfl
              | none => rfl
  | leaf txid leafIndex =>
      obtain ⟨hrow, hregistered⟩ := hfits
      cases output with
      | some old =>
          obtain rfl := hrow old rfl
          rfl
      | none =>
          cases leaf with
          | some registered =>
              obtain rfl := hregistered registered rfl
              cases early with
              | true => rfl
              | false => rfl
          | none =>
              cases owner with
              | some account =>
                  cases early with
                  | true => rfl
                  | false => exact absurd (hsound.late rfl rfl) (by simp)
              | none =>
                  cases early with
                  | true => exact absurd (hsound.early rfl) (by simp)
                  | false => rfl
  | owner wallet ciphertext =>
      cases output with
      | some old => rfl
      | none =>
          cases leaf with
          | some registered =>
              cases early with
              | true => rfl
              | false => rfl
          | none =>
              cases owner with
              | some account =>
                  cases early with
                  | true => rfl
                  | false => exact absurd (hsound.late rfl rfl) (by simp)
              | none =>
                  cases early with
                  | true => rfl
                  | false => rfl

/-- Two rows with the same news differ if the owner came first for only one of them, and no
pool's event is known. -/
theorem render_eq_iff {known known' : Known} (h : known.Sound) (h' : known'.Sound)
    (houtput : known.output = known'.output) (hleaf : known.leaf = known'.leaf)
    (howner : known.owner = known'.owner) :
    known.render = known'.render ↔
      (known.output = none → (known.early = true ↔ known'.early = true)) := by
  obtain ⟨output, leaf, owner, early⟩ := known
  obtain ⟨output', leaf', owner', early'⟩ := known'
  dsimp only at houtput hleaf howner ⊢
  subst houtput hleaf howner
  by_cases hsame : early = early'
  · subst hsame
    exact iff_of_true rfl fun _ => Iff.rfl
  · cases output with
    | some row => exact iff_of_true rfl fun hnone => by cases hnone
    | none =>
        have hdiffer : ¬ (early = true ↔ early' = true) :=
          fun hiff => hsame (Bool.eq_iff_iff.mpr hiff)
        have hknown : leaf.isSome = true ∨ owner.isSome = true := by
          cases early with
          | true => exact .inr (h.early rfl)
          | false =>
              cases early' with
              | true => exact .inr (h'.early rfl)
              | false => exact absurd rfl hsame
        refine iff_of_false (fun hrow => hsame ?_) fun halways => hdiffer (halways rfl)
        have hsome : ¬ (leaf.isNone = true ∧ owner.isNone = true) := by
          rcases hknown with hleaf | howner
          · intro hnone
            rw [Option.isNone_iff_eq_none.mp hnone.1] at hleaf
            cases hleaf
          · intro hnone
            rw [Option.isNone_iff_eq_none.mp hnone.2] at howner
            cases howner
        simp only [render, Option.isNone_none, true_and, hsome, if_false, Option.some.injEq,
          StoredNote.mk.injEq] at hrow
        have hroot := congrArg NoteRow.root hrow.1
        cases early with
        | true =>
            cases early' with
            | true => rfl
            | false => cases hroot
        | false =>
            cases early' with
            | true => cases hroot
            | false => rfl

/-- What is known after some news. -/
def after (news : List News) : Known := news.foldl add nothing

end Known

/-! ## What news there is -/

/-- The news of a commitment fit together. -/
structure Coherent (news : List News) : Prop where
  output : ∀ row row', News.output row ∈ news → News.output row' ∈ news → row = row'
  leaf : ∀ txid txid' leafIndex leafIndex', News.leaf txid leafIndex ∈ news →
    News.leaf txid' leafIndex' ∈ news → txid = txid' ∧ leafIndex = leafIndex'
  place : ∀ row txid leafIndex, News.output row ∈ news → News.leaf txid leafIndex ∈ news →
    row.leafIndex = leafIndex
  owner : ∀ wallet wallet' ciphertext ciphertext', News.owner wallet ciphertext ∈ news →
    News.owner wallet' ciphertext' ∈ news → wallet = wallet' ∧ ciphertext = ciphertext'

/-- The owner comes first. -/
def OwnerFirst (news : List News) : Prop :=
  ∃ wallet ciphertext, news.head? = some (.owner wallet ciphertext)

/-- What is known is what the news tell. -/
structure Tidings (news : List News) (known : Known) : Prop where
  output : ∀ row, known.output = some row ↔ News.output row ∈ news
  leaf : ∀ txid leafIndex, known.leaf = some (txid, leafIndex) ↔ News.leaf txid leafIndex ∈ news
  owner : ∀ wallet ciphertext,
    known.owner = some (wallet, ciphertext) ↔ News.owner wallet ciphertext ∈ news
  early : known.early = true ↔ OwnerFirst news
  sound : known.Sound

section Tidings

variable {news more : List News} {one : News} {known : Known}

theorem Coherent.subset (h : Coherent more) (hsubset : news ⊆ more) : Coherent news where
  output row row' hrow hrow' := h.output row row' (hsubset hrow) (hsubset hrow')
  leaf txid txid' leafIndex leafIndex' hleaf hleaf' :=
    h.leaf txid txid' leafIndex leafIndex' (hsubset hleaf) (hsubset hleaf')
  place row txid leafIndex hrow hleaf := h.place row txid leafIndex (hsubset hrow) (hsubset hleaf)
  owner wallet wallet' ciphertext ciphertext' howner howner' :=
    h.owner wallet wallet' ciphertext ciphertext' (hsubset howner) (hsubset howner')

theorem Tidings.nothing : Tidings [] Known.nothing where
  output row := iff_of_false (fun h => by cases h) List.not_mem_nil
  leaf txid leafIndex := iff_of_false (fun h => by cases h) List.not_mem_nil
  owner wallet ciphertext := iff_of_false (fun h => by cases h) List.not_mem_nil
  early := iff_of_false (fun h => by cases h) (fun ⟨_, _, h⟩ => by cases h)
  sound := Known.Sound.nothing

/-- If nothing is known of the leaf, all news are the owner's. -/
theorem Tidings.ownerFirst (h : Tidings news known) (houtput : known.output = none)
    (hleaf : known.leaf = none) (hne : news ≠ []) : OwnerFirst news := by
  cases news with
  | nil => exact absurd rfl hne
  | cons first rest =>
      cases first with
      | output row =>
          have hknown := (h.output row).mpr List.mem_cons_self
          rw [houtput] at hknown
          cases hknown
      | leaf txid leafIndex =>
          have hknown := (h.leaf txid leafIndex).mpr List.mem_cons_self
          rw [hleaf] at hknown
          cases hknown
      | owner wallet ciphertext => exact ⟨wallet, ciphertext, rfl⟩

theorem ownerFirst_concat (hne : news ≠ []) : OwnerFirst (news ++ [one]) ↔ OwnerFirst news := by
  unfold OwnerFirst
  rw [List.head?_append_of_ne_nil _ hne]

theorem Tidings.fits (h : Tidings news known) (hcoherent : Coherent (news ++ [one])) :
    known.Fits one := by
  have hold {old : News} (hmem : old ∈ news) : old ∈ news ++ [one] := List.mem_append_left _ hmem
  have hone : one ∈ news ++ [one] := List.mem_append_right _ List.mem_cons_self
  cases one with
  | output row =>
      rintro ⟨txid, leafIndex⟩ hregistered
      exact hcoherent.place row txid leafIndex hone (hold ((h.leaf txid leafIndex).mp hregistered))
  | leaf txid leafIndex =>
      refine ⟨fun row hrow => ?_, ?_⟩
      · exact hcoherent.place row txid leafIndex (hold ((h.output row).mp hrow)) hone
      · rintro ⟨txid', leafIndex'⟩ hregistered
        obtain ⟨rfl, rfl⟩ := hcoherent.leaf _ _ _ _
          (hold ((h.leaf txid' leafIndex').mp hregistered)) hone
        rfl
  | owner wallet ciphertext => trivial

theorem not_ownerFirst_nil : ¬ OwnerFirst [] := by
  rintro ⟨wallet, ciphertext, hhead⟩
  cases hhead

/-- Only an owner can come first as an owner. -/
theorem ownerFirst_concat_of_ne (hne : ∀ wallet ciphertext, one ≠ .owner wallet ciphertext) :
    OwnerFirst (news ++ [one]) ↔ OwnerFirst news := by
  cases news with
  | nil =>
      refine iff_of_false ?_ not_ownerFirst_nil
      rintro ⟨wallet, ciphertext, hhead⟩
      exact hne wallet ciphertext (Option.some.inj hhead)
  | cons first rest => exact ownerFirst_concat (List.cons_ne_nil first rest)

theorem mem_concat_of_ne {other : News} (hne : other ≠ one) :
    other ∈ news ++ [one] ↔ other ∈ news := by
  rw [List.mem_append, List.mem_singleton]
  exact or_iff_left hne

theorem Tidings.concat_output {row : NoteRow} (h : Tidings news known)
    (hcoherent : Coherent (news ++ [.output row])) :
    Tidings (news ++ [.output row]) (known.add (.output row)) where
  output row' := by
    constructor
    · intro hrow
      obtain rfl : row = row' := Option.some.inj hrow
      exact List.mem_append_right _ List.mem_cons_self
    · intro hmem
      exact congrArg some
        (hcoherent.output row row' (List.mem_append_right _ List.mem_cons_self) hmem)
  leaf txid leafIndex := by
    rw [mem_concat_of_ne (fun heq => by cases heq)]
    exact h.leaf txid leafIndex
  owner wallet ciphertext := by
    rw [mem_concat_of_ne (fun heq => by cases heq)]
    exact h.owner wallet ciphertext
  early := by
    rw [ownerFirst_concat_of_ne (fun _ _ heq => by cases heq)]
    exact h.early
  sound := h.sound.add _

theorem Tidings.concat_leaf {txid : String} {leafIndex : Option Int} (h : Tidings news known)
    (hcoherent : Coherent (news ++ [.leaf txid leafIndex])) :
    Tidings (news ++ [.leaf txid leafIndex]) (known.add (.leaf txid leafIndex)) where
  output row := by
    rw [mem_concat_of_ne (fun heq => by cases heq)]
    exact h.output row
  leaf txid' leafIndex' := by
    constructor
    · intro hleaf
      obtain ⟨rfl, rfl⟩ : txid = txid' ∧ leafIndex = leafIndex' :=
        Prod.mk.inj (Option.some.inj hleaf)
      exact List.mem_append_right _ List.mem_cons_self
    · intro hmem
      obtain ⟨rfl, rfl⟩ := hcoherent.leaf txid txid' leafIndex leafIndex'
        (List.mem_append_right _ List.mem_cons_self) hmem
      rfl
  owner wallet ciphertext := by
    rw [mem_concat_of_ne (fun heq => by cases heq)]
    exact h.owner wallet ciphertext
  early := by
    rw [ownerFirst_concat_of_ne (fun _ _ heq => by cases heq)]
    exact h.early
  sound := h.sound.add _

theorem Tidings.concat_owner {wallet ciphertext : String} (h : Tidings news known)
    (hcoherent : Coherent (news ++ [.owner wallet ciphertext])) :
    Tidings (news ++ [.owner wallet ciphertext]) (known.add (.owner wallet ciphertext)) where
  output row := by
    rw [mem_concat_of_ne (fun heq => by cases heq)]
    exact h.output row
  leaf txid leafIndex := by
    rw [mem_concat_of_ne (fun heq => by cases heq)]
    exact h.leaf txid leafIndex
  owner wallet' ciphertext' := by
    constructor
    · intro howner
      obtain ⟨rfl, rfl⟩ : wallet = wallet' ∧ ciphertext = ciphertext' :=
        Prod.mk.inj (Option.some.inj howner)
      exact List.mem_append_right _ List.mem_cons_self
    · intro hmem
      obtain ⟨rfl, rfl⟩ := hcoherent.owner wallet wallet' ciphertext ciphertext'
        (List.mem_append_right _ List.mem_cons_self) hmem
      rfl
  early := by
    simp only [Known.add, Bool.or_eq_true, Bool.and_eq_true, Option.isNone_iff_eq_none]
    by_cases hempty : news = []
    · subst hempty
      have houtput : known.output = none := Option.eq_none_iff_forall_not_mem.mpr fun row hrow =>
        List.not_mem_nil ((h.output row).mp hrow)
      have hleaf : known.leaf = none := Option.eq_none_iff_forall_not_mem.mpr fun registered hmem =>
        List.not_mem_nil ((h.leaf registered.1 registered.2).mp hmem)
      exact iff_of_true (.inr ⟨houtput, hleaf⟩) ⟨wallet, ciphertext, rfl⟩
    · rw [ownerFirst_concat hempty]
      constructor
      · rintro (hearly | ⟨houtput, hleaf⟩)
        · exact h.early.mp hearly
        · exact h.ownerFirst houtput hleaf hempty
      · intro hfirst
        exact .inl (h.early.mpr hfirst)
  sound := h.sound.add _

theorem Tidings.concat (h : Tidings news known) (hcoherent : Coherent (news ++ [one])) :
    Tidings (news ++ [one]) (known.add one) := by
  cases one with
  | output row => exact h.concat_output hcoherent
  | leaf txid leafIndex => exact h.concat_leaf hcoherent
  | owner wallet ciphertext => exact h.concat_owner hcoherent

/-- After coherent news the row shows what they tell. -/
theorem tidings_after (hcoherent : Coherent news) :
    Tidings news (Known.after news) ∧
      news.foldl News.apply none = (Known.after news).render := by
  induction news using List.reverseRecOn with
  | nil => exact ⟨.nothing, rfl⟩
  | append_singleton news one ih =>
      obtain ⟨htidings, hrow⟩ := ih (hcoherent.subset (List.subset_append_left _ _))
      have hafter : Known.after (news ++ [one]) = (Known.after news).add one := by
        unfold Known.after
        rw [List.foldl_append, List.foldl_cons, List.foldl_nil]
      rw [hafter, List.foldl_append, List.foldl_cons, List.foldl_nil, hrow,
        Known.render_add htidings.sound (htidings.fits hcoherent)]
      exact ⟨htidings.concat hcoherent, rfl⟩

/-- Two ways to know the same show the same row, unless only one of them has the owner first
and no pool's event is known. -/
theorem Tidings.render_eq_iff {known' : Known} (h : Tidings news known)
    (h' : Tidings more known') (hsame : ∀ one, one ∈ news ↔ one ∈ more) :
    known.render = known'.render ↔
      ((∀ row, News.output row ∉ news) → (OwnerFirst news ↔ OwnerFirst more)) := by
  have houtput : known.output = known'.output := Option.ext fun row => by
    exact (h.output row).trans ((hsame _).trans (h'.output row).symm)
  have hleaf : known.leaf = known'.leaf := Option.ext fun registered => by
    exact (h.leaf _ _).trans ((hsame _).trans (h'.leaf _ _).symm)
  have howner : known.owner = known'.owner := Option.ext fun account => by
    exact (h.owner _ _).trans ((hsame _).trans (h'.owner _ _).symm)
  have hnone : (∀ row, News.output row ∉ news) ↔ known.output = none := by
    rw [Option.eq_none_iff_forall_not_mem]
    exact forall_congr' fun row => not_congr (h.output row).symm
  rw [hnone, ← h.early, ← h'.early]
  exact Known.render_eq_iff h.sound h'.sound houtput hleaf howner

end Tidings

/-! ## Rows by their news -/

def newsAll (commitment : String) (operations : List NoteOperation) : List News :=
  operations.flatMap (NoteOperation.newsOf commitment)

section Rows

variable {commitment : String} {table : NoteTable}

theorem NoteWrite.lookup_stored (write : NoteWrite) :
    (write.stored table).lookup commitment =
      (write.newsOf commitment).toList.foldl News.apply (table.lookup commitment) := by
  cases write with
  | output written row =>
      simp only [stored, NoteTable.insertNote, NoteTable.lookup_write, newsOf]
      by_cases hsame : written = commitment
      · subst hsame
        simp only [if_true]
        rfl
      · rw [if_neg (Ne.symm hsame), if_neg hsame]
        rfl
  | leaf written txid leafIndex =>
      simp only [stored, NoteTable.upsertCommitmentLeaf, NoteTable.lookup_write, newsOf]
      by_cases hsame : written = commitment
      · subst hsame
        simp only [if_true]
        rfl
      · rw [if_neg (Ne.symm hsame), if_neg hsame]
        rfl

theorem lookup_writes (writes : List NoteWrite) :
    (writes.foldl NoteWrite.stored table).lookup commitment =
      (writes.filterMap (NoteWrite.newsOf commitment)).foldl News.apply
        (table.lookup commitment) := by
  induction writes generalizing table with
  | nil => rfl
  | cons write rest ih =>
      rw [List.foldl_cons, ih, NoteWrite.lookup_stored, List.filterMap_cons]
      cases write.newsOf commitment with
      | none => rfl
      | some news => rfl

theorem NoteOperation.lookup_process (operation : NoteOperation) :
    (operation.process table).lookup commitment =
      (operation.newsOf commitment).foldl News.apply (table.lookup commitment) := by
  cases operation with
  | event ev txid => exact lookup_writes (noteWrites ev txid)
  | register wallet written ciphertext =>
      simp only [process, NoteTable.registerWalletNote, NoteTable.lookup_write, newsOf]
      by_cases hsame : written = commitment
      · subst hsame
        simp only [if_true]
        rfl
      · rw [if_neg (Ne.symm hsame), if_neg hsame]
        rfl

/-- A row is what its news make of it. -/
theorem lookup_processAll (operations : List NoteOperation) :
    (processAll operations).lookup commitment =
      (newsAll commitment operations).foldl News.apply none := by
  have hfrom : ∀ table : NoteTable,
      (operations.foldl NoteOperation.process table).lookup commitment =
        (newsAll commitment operations).foldl News.apply (table.lookup commitment) := by
    intro table
    induction operations generalizing table with
    | nil => rfl
    | cons operation rest ih =>
        rw [List.foldl_cons, ih, NoteOperation.lookup_process]
        unfold newsAll
        rw [List.flatMap_cons, List.foldl_append]
  exact hfrom ∅

end Rows

/-! ## Histories -/

/-- Some events of a chain, each with its transaction. -/
structure History where
  registry : PrivacyRegistry
  entries : List (DecodedEvent × String)
  indexed : ∀ entry ∈ entries, entry.1.Indexed
  /-- Events name commitments by the places that the registry has them at. -/
  tells : ∀ entry ∈ entries, Tells registry entry.1
  /-- A commitment is registered once, so one operation puts it out. -/
  once : ∀ first ∈ entries, ∀ second ∈ entries, ∀ commitment leafIndex leafIndex',
    first.1.Names commitment leafIndex → second.1.Names commitment leafIndex' →
      (first.1.event = "commitment-registered" ↔ second.1.event = "commitment-registered") →
        first = second

/-- A pool's event puts the commitment out. -/
def History.PutsOut (history : History) (commitment : String) : Prop :=
  ∃ entry ∈ history.entries, ∃ row, .output commitment row ∈ noteWrites entry.1 entry.2

/-- Each event is processed, and each registration of an owner, in any order and any number of
times. -/
structure Processes (history : History) (owners : String → Option (String × String))
    (operations : List NoteOperation) : Prop where
  event : ∀ ev txid, .event ev txid ∈ operations ↔ (ev, txid) ∈ history.entries
  register : ∀ wallet commitment ciphertext,
    .register wallet commitment ciphertext ∈ operations ↔
      owners commitment = some (wallet, ciphertext)

/-! ## Any order -/

section Orders

variable {history : History} {owners : String → Option (String × String)}
  {operations operations' : List NoteOperation} {commitment : String}

/-- The registry has a commitment at one place. -/
theorem atLeaf_unique {registry : PrivacyRegistry} {leafIndex leafIndex' : Int}
    (h : AtLeaf registry commitment leafIndex) (h' : AtLeaf registry commitment leafIndex') :
    leafIndex = leafIndex' := by
  obtain ⟨place, leaf, rfl, hleaf, htext⟩ := h
  obtain ⟨place', leaf', rfl, hleaf', htext'⟩ := h'
  have hsame : leaf = leaf' := Buff32.ext (hexText_injective (htext.symm.trans htext'))
  subst hsame
  have hnodup : registry.leaves.Nodup := List.nodup_reverse.mpr registry.commitments.nodupKeys
  obtain ⟨hlt, hget⟩ := List.getElem?_eq_some_iff.mp hleaf
  obtain ⟨hlt', hget'⟩ := List.getElem?_eq_some_iff.mp hleaf'
  exact congrArg Nat.cast ((hnodup.getElem_inj_iff).mp (hget.trans hget'.symm))

/-- The places that events tell are the same. -/
theorem History.place_unique (history : History) {first second : DecodedEvent × String}
    (hfirst : first ∈ history.entries) (hsecond : second ∈ history.entries)
    {leafIndex leafIndex' : Option Int} (hnames : first.1.Names commitment leafIndex)
    (hnames' : second.1.Names commitment leafIndex') : leafIndex = leafIndex' := by
  obtain ⟨place, rfl⟩ := Option.isSome_iff_exists.mp ((history.indexed first hfirst).names hnames)
  obtain ⟨place', rfl⟩ :=
    Option.isSome_iff_exists.mp ((history.indexed second hsecond).names hnames')
  exact congrArg some (atLeaf_unique (history.tells first hfirst commitment place hnames)
    (history.tells second hsecond commitment place' hnames'))

/-- The news of a write. -/
theorem NoteWrite.newsOf_eq_some {write : NoteWrite} {news : News} :
    write.newsOf commitment = some news ↔
      (∃ row, news = .output row ∧ write = .output commitment row) ∨
        ∃ txid leafIndex, news = .leaf txid leafIndex ∧ write = .leaf commitment txid leafIndex := by
  cases write with
  | output written row =>
      simp only [newsOf, Option.ite_none_right_eq_some, Option.some.injEq]
      constructor
      · rintro ⟨rfl, rfl⟩
        exact .inl ⟨row, rfl, rfl⟩
      · rintro (⟨_, rfl, hwrite⟩ | ⟨_, _, _, hwrite⟩)
        · obtain ⟨rfl, rfl⟩ := NoteWrite.output.inj hwrite
          exact ⟨rfl, rfl⟩
        · cases hwrite
  | leaf written txid leafIndex =>
      simp only [newsOf, Option.ite_none_right_eq_some, Option.some.injEq]
      constructor
      · rintro ⟨rfl, rfl⟩
        exact .inr ⟨txid, leafIndex, rfl, rfl⟩
      · rintro (⟨_, _, hwrite⟩ | ⟨_, _, rfl, hwrite⟩)
        · cases hwrite
        · obtain ⟨rfl, rfl, rfl⟩ := NoteWrite.leaf.inj hwrite
          exact ⟨rfl, rfl⟩

theorem NoteOperation.mem_newsOf {operation : NoteOperation} {news : News} :
    news ∈ operation.newsOf commitment ↔
      (∃ ev txid, operation = .event ev txid ∧
        ((∃ row, news = .output row ∧ .output commitment row ∈ noteWrites ev txid) ∨
          ∃ written leafIndex, news = .leaf written leafIndex ∧
            .leaf commitment written leafIndex ∈ noteWrites ev txid)) ∨
        ∃ wallet ciphertext, operation = .register wallet commitment ciphertext ∧
          news = .owner wallet ciphertext := by
  cases operation with
  | event ev txid =>
      simp only [newsOf, List.mem_filterMap, NoteWrite.newsOf_eq_some]
      constructor
      · rintro ⟨write, hwrite, ⟨row, hnews, rfl⟩ | ⟨written, leafIndex, hnews, rfl⟩⟩
        · exact .inl ⟨ev, txid, rfl, .inl ⟨row, hnews, hwrite⟩⟩
        · exact .inl ⟨ev, txid, rfl, .inr ⟨written, leafIndex, hnews, hwrite⟩⟩
      · rintro (⟨_, _, heq, hwrite⟩ | ⟨_, _, heq, _⟩)
        · obtain ⟨rfl, rfl⟩ := NoteOperation.event.inj heq
          rcases hwrite with ⟨row, hnews, hwrite⟩ | ⟨written, leafIndex, hnews, hwrite⟩
          · exact ⟨_, hwrite, .inl ⟨row, hnews, rfl⟩⟩
          · exact ⟨_, hwrite, .inr ⟨written, leafIndex, hnews, rfl⟩⟩
        · cases heq
  | register wallet written ciphertext =>
      simp only [newsOf, List.mem_ite_nil_right, List.mem_singleton]
      constructor
      · rintro ⟨rfl, hnews⟩
        exact .inr ⟨wallet, ciphertext, rfl, hnews⟩
      · rintro (⟨_, _, heq, _⟩ | ⟨_, _, heq, hnews⟩)
        · cases heq
        · obtain ⟨rfl, rfl, rfl⟩ := NoteOperation.register.inj heq
          exact ⟨rfl, hnews⟩

theorem mem_newsAll_output {row : NoteRow} (h : Processes history owners operations) :
    .output row ∈ newsAll commitment operations ↔
      ∃ entry ∈ history.entries, .output commitment row ∈ noteWrites entry.1 entry.2 := by
  simp only [newsAll, List.mem_flatMap, NoteOperation.mem_newsOf]
  constructor
  · rintro ⟨_, hmem, ⟨ev, txid, rfl, ⟨_, hnews, hwrite⟩ | ⟨_, _, hnews, _⟩⟩ | ⟨_, _, _, hnews⟩⟩
    · obtain rfl := News.output.inj hnews
      exact ⟨(ev, txid), (h.event ev txid).mp hmem, hwrite⟩
    · cases hnews
    · cases hnews
  · rintro ⟨⟨ev, txid⟩, hentry, hwrite⟩
    exact ⟨.event ev txid, (h.event ev txid).mpr hentry,
      .inl ⟨ev, txid, rfl, .inl ⟨row, rfl, hwrite⟩⟩⟩

theorem mem_newsAll_leaf {txid : String} {leafIndex : Option Int}
    (h : Processes history owners operations) :
    .leaf txid leafIndex ∈ newsAll commitment operations ↔
      ∃ entry ∈ history.entries, .leaf commitment txid leafIndex ∈ noteWrites entry.1 entry.2 := by
  simp only [newsAll, List.mem_flatMap, NoteOperation.mem_newsOf]
  constructor
  · rintro ⟨_, hmem, ⟨ev, sent, rfl, ⟨_, hnews, _⟩ | ⟨_, _, hnews, hwrite⟩⟩ | ⟨_, _, _, hnews⟩⟩
    · cases hnews
    · obtain ⟨rfl, rfl⟩ := News.leaf.inj hnews
      exact ⟨(ev, sent), (h.event ev sent).mp hmem, hwrite⟩
    · cases hnews
  · rintro ⟨⟨ev, sent⟩, hentry, hwrite⟩
    exact ⟨.event ev sent, (h.event ev sent).mpr hentry,
      .inl ⟨ev, sent, rfl, .inr ⟨txid, leafIndex, rfl, hwrite⟩⟩⟩

theorem mem_newsAll_owner {wallet ciphertext : String}
    (h : Processes history owners operations) :
    .owner wallet ciphertext ∈ newsAll commitment operations ↔
      owners commitment = some (wallet, ciphertext) := by
  simp only [newsAll, List.mem_flatMap, NoteOperation.mem_newsOf]
  constructor
  · rintro ⟨_, hmem, ⟨_, _, _, ⟨_, hnews, _⟩ | ⟨_, _, hnews, _⟩⟩ | ⟨_, _, rfl, hnews⟩⟩
    · cases hnews
    · cases hnews
    · obtain ⟨rfl, rfl⟩ := News.owner.inj hnews
      exact (h.register wallet commitment ciphertext).mp hmem
  · intro howner
    exact ⟨.register wallet commitment ciphertext,
      (h.register wallet commitment ciphertext).mpr howner,
      .inr ⟨wallet, ciphertext, rfl, rfl⟩⟩

/-- What is processed in two orders is the same news. -/
theorem newsAll_same (h : Processes history owners operations)
    (h' : Processes history owners operations') (news : News) :
    news ∈ newsAll commitment operations ↔ news ∈ newsAll commitment operations' := by
  cases news with
  | output row => exact (mem_newsAll_output h).trans (mem_newsAll_output h').symm
  | leaf txid leafIndex => exact (mem_newsAll_leaf h).trans (mem_newsAll_leaf h').symm
  | owner wallet ciphertext => exact (mem_newsAll_owner h).trans (mem_newsAll_owner h').symm

theorem coherent_newsAll (h : Processes history owners operations) :
    Coherent (newsAll commitment operations) where
  output row row' hrow hrow' := by
    obtain ⟨first, hfirst, hwrite⟩ := (mem_newsAll_output h).mp hrow
    obtain ⟨second, hsecond, hwrite'⟩ := (mem_newsAll_output h).mp hrow'
    obtain ⟨hnames, hevent⟩ := names_of_output hwrite
    obtain ⟨hnames', hevent'⟩ := names_of_output hwrite'
    obtain rfl := history.once first hfirst second hsecond _ _ _ hnames hnames'
      (iff_of_false hevent hevent')
    exact output_unique hwrite hwrite' (history.place_unique hfirst hfirst hnames hnames')
  leaf txid txid' leafIndex leafIndex' hleaf hleaf' := by
    obtain ⟨first, hfirst, hwrite⟩ := (mem_newsAll_leaf h).mp hleaf
    obtain ⟨second, hsecond, hwrite'⟩ := (mem_newsAll_leaf h).mp hleaf'
    obtain ⟨hnames, hevent, htxid⟩ := names_of_leaf hwrite
    obtain ⟨hnames', hevent', htxid'⟩ := names_of_leaf hwrite'
    obtain rfl := history.once first hfirst second hsecond _ _ _ hnames hnames'
      (iff_of_true hevent hevent')
    exact ⟨htxid.trans htxid'.symm, history.place_unique hfirst hfirst hnames hnames'⟩
  place row txid leafIndex hrow hleaf := by
    obtain ⟨first, hfirst, hwrite⟩ := (mem_newsAll_output h).mp hrow
    obtain ⟨second, hsecond, hwrite'⟩ := (mem_newsAll_leaf h).mp hleaf
    exact history.place_unique hfirst hsecond (names_of_output hwrite).1 (names_of_leaf hwrite').1
  owner wallet wallet' ciphertext ciphertext' howner howner' := by
    have hfound := (mem_newsAll_owner h).mp howner
    have hfound' := (mem_newsAll_owner h).mp howner'
    exact Prod.mk.inj (Option.some.inj (hfound.symm.trans hfound'))

/-- Processing the same in two orders leaves the same rows exactly if, for each commitment
that no pool's event puts out, the owner is first in both orders or in neither. -/
theorem note_index_confluent_iff (history : History) (owners : String → Option (String × String))
    (operations operations' : List NoteOperation) (h : Processes history owners operations)
    (h' : Processes history owners operations') :
    (∀ commitment, (processAll operations).lookup commitment =
        (processAll operations').lookup commitment) ↔
      ∀ commitment, ¬ history.PutsOut commitment →
        (OwnerFirst (newsAll commitment operations) ↔
          OwnerFirst (newsAll commitment operations')) := by
  refine forall_congr' fun commitment => ?_
  have hcoherent : Coherent (newsAll commitment operations) := coherent_newsAll h
  have hcoherent' : Coherent (newsAll commitment operations') := coherent_newsAll h'
  obtain ⟨htidings, hrow⟩ := tidings_after hcoherent
  obtain ⟨htidings', hrow'⟩ := tidings_after hcoherent'
  have hputs : (∀ row, News.output row ∉ newsAll commitment operations) ↔
      ¬ history.PutsOut commitment := by
    unfold History.PutsOut
    constructor
    · rintro hnone ⟨entry, hentry, row, hwrite⟩
      exact hnone row ((mem_newsAll_output h).mpr ⟨entry, hentry, hwrite⟩)
    · rintro hnone row hrow
      obtain ⟨entry, hentry, hwrite⟩ := (mem_newsAll_output h).mp hrow
      exact hnone ⟨entry, hentry, row, hwrite⟩
  rw [lookup_processAll, lookup_processAll, hrow, hrow',
    htidings.render_eq_iff htidings' (newsAll_same h h'), hputs]

end Orders

namespace Sample

/-- The events of a SIP-10 split: the pool's, and the registry's for each output. -/
def splitPrinted : DecodedEvent where
  event := "sip10-split"
  fields field := if field = "asset-id" then .int 1 else .null

def leafPrinted (leaf : Buff32) (index : Int) : DecodedEvent where
  event := "commitment-registered"
  fields field :=
    if field = "commitment" then .text (hexText leaf.bytes)
    else if field = "index" then .int index
    else .null

def splitEntries : List (DecodedEvent × String) :=
  [(splitPrinted, "split"), (leafPrinted firstLeaf 0, "split"), (leafPrinted secondLeaf 1, "split")]

theorem leafPrinted_names {leaf : Buff32} {index : Int} {commitment : String}
    {leafIndex : Option Int} (h : (leafPrinted leaf index).Names commitment leafIndex) :
    commitment = hexText leaf.bytes ∧ leafIndex = some index := by
  obtain ⟨pair, hpair, hcommitment, hindex⟩ := h
  obtain rfl := List.mem_singleton.mp hpair
  simp only [leafPrinted, asHex, if_true] at hcommitment
  split at hcommitment
  · cases hcommitment
  · exact ⟨(Option.some.inj hcommitment).symm, hindex.symm⟩

theorem splitPrinted_names {commitment : String} {leafIndex : Option Int} :
    ¬ splitPrinted.Names commitment leafIndex := by
  rintro ⟨pair, hpair, -⟩
  cases hpair

theorem leaves_differ : hexText firstLeaf.bytes ≠ hexText secondLeaf.bytes := by
  intro hsame
  have hbytes : firstLeaf.bytes = secondLeaf.bytes := hexText_injective hsame
  revert hbytes
  decide

/-- The events that name a commitment are the registry's. -/
theorem splitEntries_names {entry : DecodedEvent × String} (hentry : entry ∈ splitEntries)
    {commitment : String} {leafIndex : Option Int} (h : entry.1.Names commitment leafIndex) :
    (entry = (leafPrinted firstLeaf 0, "split") ∧ commitment = hexText firstLeaf.bytes ∧
        leafIndex = some 0) ∨
      (entry = (leafPrinted secondLeaf 1, "split") ∧ commitment = hexText secondLeaf.bytes ∧
        leafIndex = some 1) := by
  simp only [splitEntries, List.mem_cons, List.not_mem_nil, or_false] at hentry
  rcases hentry with rfl | rfl | rfl
  · exact absurd h splitPrinted_names
  · exact .inl ⟨rfl, leafPrinted_names h⟩
  · exact .inr ⟨rfl, leafPrinted_names h⟩

def splitHistory : History where
  registry := (PrivacyRegistry.runOf registrar registrations).state
  entries := splitEntries
  indexed entry hentry := by
    simp only [splitEntries, List.mem_cons, List.not_mem_nil, or_false] at hentry
    rcases hentry with rfl | rfl | rfl
    · exact ⟨fun h => absurd h (by decide), fun h => absurd h (by decide),
        fun h => absurd h (by decide)⟩
    · exact ⟨fun h => absurd h (by decide), fun h => absurd h (by decide), fun _ => rfl⟩
    · exact ⟨fun h => absurd h (by decide), fun h => absurd h (by decide), fun _ => rfl⟩
  tells entry hentry commitment leafIndex hnames := by
    rcases splitEntries_names hentry hnames with ⟨-, rfl, hindex⟩ | ⟨-, rfl, hindex⟩
    · obtain rfl := Option.some.inj hindex
      exact ⟨0, firstLeaf, rfl, by rw [registrations_leaves]; rfl, rfl⟩
    · obtain rfl := Option.some.inj hindex
      exact ⟨1, secondLeaf, rfl, by rw [registrations_leaves]; rfl, rfl⟩
  once first hfirst second hsecond commitment _ _ hnames hnames' _ := by
    rcases splitEntries_names hfirst hnames with ⟨rfl, rfl, -⟩ | ⟨rfl, rfl, -⟩
    · rcases splitEntries_names hsecond hnames' with ⟨rfl, -, -⟩ | ⟨-, hsame, -⟩
      · rfl
      · exact absurd hsame leaves_differ
    · rcases splitEntries_names hsecond hnames' with ⟨-, hsame, -⟩ | ⟨rfl, -, -⟩
      · exact absurd hsame.symm leaves_differ
      · rfl

/-- The owner of the first output, before the events and after them. -/
def splitOwners (commitment : String) : Option (String × String) :=
  if commitment = hexText firstLeaf.bytes then some ("wallet", "ciphertext") else none

def registersFirst : NoteOperation := .register "wallet" (hexText firstLeaf.bytes) "ciphertext"

def splitProcessed : List NoteOperation :=
  splitEntries.map fun entry => .event entry.1 entry.2

theorem splitOwners_eq_some {wallet commitment ciphertext : String} :
    splitOwners commitment = some (wallet, ciphertext) ↔
      NoteOperation.register wallet commitment ciphertext = registersFirst := by
  unfold splitOwners registersFirst
  rw [Option.ite_none_right_eq_some, Option.some.injEq, Prod.mk.injEq,
    NoteOperation.register.injEq]
  constructor
  · rintro ⟨rfl, rfl, rfl⟩
    exact ⟨rfl, rfl, rfl⟩
  · rintro ⟨rfl, rfl, rfl⟩
    exact ⟨rfl, rfl, rfl⟩

theorem event_mem_splitProcessed {ev : DecodedEvent} {txid : String} :
    .event ev txid ∈ splitProcessed ↔ (ev, txid) ∈ splitHistory.entries := by
  unfold splitProcessed
  rw [List.mem_map]
  constructor
  · rintro ⟨entry, hentry, heq⟩
    obtain ⟨rfl, rfl⟩ := NoteOperation.event.inj heq
    exact hentry
  · intro hentry
    exact ⟨(ev, txid), hentry, rfl⟩

theorem register_not_mem_splitProcessed {wallet commitment ciphertext : String} :
    .register wallet commitment ciphertext ∉ splitProcessed := by
  intro hmem
  obtain ⟨entry, -, heq⟩ := List.mem_map.mp hmem
  cases heq

theorem processes_early :
    Processes splitHistory splitOwners (registersFirst :: splitProcessed) where
  event ev txid := by
    rw [List.mem_cons, event_mem_splitProcessed]
    exact or_iff_right fun heq => by cases heq
  register wallet commitment ciphertext := by
    rw [List.mem_cons, splitOwners_eq_some]
    exact or_iff_left register_not_mem_splitProcessed

theorem processes_late :
    Processes splitHistory splitOwners (splitProcessed ++ [registersFirst]) where
  event ev txid := by
    rw [List.mem_append, List.mem_singleton, event_mem_splitProcessed]
    exact or_iff_left fun heq => by cases heq
  register wallet commitment ciphertext := by
    rw [List.mem_append, List.mem_singleton, splitOwners_eq_some]
    exact or_iff_right register_not_mem_splitProcessed

/-- The events once more. -/
theorem processes_again :
    Processes splitHistory splitOwners (splitProcessed ++ (registersFirst :: splitProcessed)) where
  event ev txid := by
    rw [List.mem_append, List.mem_cons, event_mem_splitProcessed]
    constructor
    · rintro (hmem | heq | hmem)
      · exact hmem
      · cases heq
      · exact hmem
    · exact .inl
  register wallet commitment ciphertext := by
    rw [List.mem_append, List.mem_cons, splitOwners_eq_some]
    constructor
    · rintro (hmem | heq | hmem)
      · exact absurd hmem register_not_mem_splitProcessed
      · exact heq
      · exact absurd hmem register_not_mem_splitProcessed
    · exact fun heq => .inr (.inl heq)

end Sample

theorem ownerFirst_rescanned (commitment : String) :
    OwnerFirst (newsAll commitment (Sample.splitProcessed ++ [Sample.registersFirst])) ↔
      OwnerFirst (newsAll commitment (Sample.splitProcessed ++
        (Sample.registersFirst :: Sample.splitProcessed))) := by
  simp only [newsAll, List.flatMap_append, List.flatMap_cons, List.flatMap_nil, List.append_nil]
  generalize Sample.splitProcessed.flatMap (NoteOperation.newsOf commitment) = printed
  cases printed with
  | nil => rw [List.nil_append, List.nil_append, List.append_nil]
  | cons first rest => exact Iff.rfl

/-- With the owner after the events of a SIP-10 split, another scan changes nothing. -/
theorem note_index_rescanned :
    (processAll (Sample.splitProcessed ++ [Sample.registersFirst])).lookup
        (hexText Sample.firstLeaf.bytes) =
      (processAll (Sample.splitProcessed ++
        (Sample.registersFirst :: Sample.splitProcessed))).lookup
          (hexText Sample.firstLeaf.bytes) :=
  (note_index_confluent_iff Sample.splitHistory Sample.splitOwners _ _ Sample.processes_late
    Sample.processes_again).mpr (fun commitment _ => ownerFirst_rescanned commitment) _

/-- A SIP-10 split's output whose owner comes first keeps the owner's stand-ins. -/
theorem note_index_order_matters :
    ¬ ∀ (history : History) (owners : String → Option (String × String))
      (operations operations' : List NoteOperation), Processes history owners operations →
      Processes history owners operations' →
      ∀ commitment, (processAll operations).lookup commitment =
        (processAll operations').lookup commitment := by
  intro halways
  have hrows := congrArg (Option.bind · fun stored => stored.root)
    (halways Sample.splitHistory Sample.splitOwners _ _ Sample.processes_early
      Sample.processes_late (hexText Sample.firstLeaf.bytes))
  revert hrows
  decide +kernel

end StxShield.BlockIndexer
