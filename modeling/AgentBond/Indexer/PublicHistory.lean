import AgentBond.Indexer.Operations
import AgentBond.Indexer.Reads
import Mathlib.Data.String.Basic

/-! # The public history

Finalized events stay for good, so a walk through their pages, with any
operations in between, comes to every one that was there before exactly once. A
page that names a next one is full and goes on from its last event, so a walk
comes to its end once the events stay as they are.
-/

namespace AgentBond.Indexer

open Foundation

section Definitions

variable {α : Type} (step : Db → Operation → Db → Prop)
  (read : Db → Db → Option Text → Stored (Page α Text))

/-- Pages read one after the other up to the last one. Operations go on between the pages and
between the two statements of each. -/
inductive PageWalk : Db → Option Text → List α → Prop
  | last {d checked now : Db} {cursor : Option Text} {page : Page α Text}
      {tr tr' : List (Transition Db Operation)} (hchecked : Run step d tr checked)
      (hnow : Run step checked tr' now) (hread : read checked now cursor = .ok page)
      (hend : page.nextCursor = none) : PageWalk d cursor page.items
  | more {d checked now : Db} {cursor : Option Text} {c : Text} {page : Page α Text}
      {items : List α} {tr tr' : List (Transition Db Operation)}
      (hchecked : Run step d tr checked) (hnow : Run step checked tr' now)
      (hread : read checked now cursor = .ok page) (hnext : page.nextCursor = some c)
      (hrest : PageWalk now (some c) items) : PageWalk d cursor (page.items ++ items)

/-- No operation goes through. -/
def Idle : Db → Operation → Db → Prop := fun _ _ _ => False

/-- A page is full, its events come after the key, and the text is the place of its last event. -/
structure GoesOn (C : Collation) (key : α → EventKey) (limit : ℕ) (after : Option EventKey)
    (page : Page α Text) (c : Text) : Prop where
  full : page.items.length = limit
  later : ∀ i ∈ page.items, Paging.after C.keyLe after (key i) = true
  resumes : ∃ i, page.items.getLast? = some i ∧ parseEventCursor (some c) = .ok (some (key i))

/-- Whatever operations go on, no page fails and every one but the last goes on; a page shows
finalized events of the address only, no event comes up twice and every one that was finalized
before comes up. When operations pause, a walk comes to its end wherever it has got to. -/
structure ExactlyPaged (C : Collation) (key : α → EventKey) (item : EventKey × EventRow → α)
    (party : EventRow → Pubkey) (address : Pubkey) (limit : ℕ) (d : Db) : Prop where
  starts : ∀ checked now, ∃ page, read checked now none = .ok page
  continues : ∀ tr checked now cursor page c, Run Operates d tr now →
    read checked now cursor = .ok page → page.nextCursor = some c →
      ∀ checked' now', ∃ page', read checked' now' (some c) = .ok page'
  progress : ∀ tr checked now cursor after page c, Run Operates d tr now →
    parseEventCursor cursor = .ok after → read checked now cursor = .ok page →
      page.nextCursor = some c → GoesOn C key limit after page c
  finishes : ∀ tr now cursor after, Run Operates d tr now → parseEventCursor cursor = .ok after →
    ∃ items, PageWalk Idle read now cursor items
  sound : ∀ checked now cursor page i, read checked now cursor = .ok page → i ∈ page.items →
    ∃ k r, now.rawProtocolEvents.get k = some r ∧ r.commitment = .finalized ∧
      party r = address ∧ item (k, r) = i
  nodup : ∀ items, PageWalk Operates read d none items → (items.map key).Nodup
  complete : ∀ items, PageWalk Operates read d none items → ∀ k r,
    d.rawProtocolEvents.get k = some r → r.commitment = .finalized → party r = address →
      item (k, r) ∈ items

end Definitions

theorem PageWalk.mono {α : Type} {step step' : Db → Operation → Db → Prop}
    {read : Db → Db → Option Text → Stored (Page α Text)} {d : Db} {cursor : Option Text}
    {items : List α} (hstep : ∀ d op d', step d op d' → step' d op d')
    (h : PageWalk step read d cursor items) : PageWalk step' read d cursor items := by
  induction h with
  | last hchecked hnow hread hend => exact .last (hchecked.mono hstep) (hnow.mono hstep) hread hend
  | more hchecked hnow hread hnext _ ih =>
    exact .more (hchecked.mono hstep) (hnow.mono hstep) hread hnext ih

section Walks

variable {C : Collation} {party : EventRow → Pubkey} {α : Type} {item : EventKey × EventRow → α}
  {key : α → EventKey} {address : Pubkey} {limit : Int} {d checked now : Db} {k : EventKey}
  {r : EventRow} {cursor : Option Text} {page : Page α Text}

theorem mem_publicEvents : (k, r) ∈ publicEvents party d address ↔
    d.rawProtocolEvents.get k = some r ∧ party r = address ∧ r.commitment = .finalized := by
  simp [publicEvents, Table.mem_selectWhere]

theorem nodup_publicEvents (d : Db) : ((publicEvents party d address).map Prod.fst).Nodup :=
  d.rawProtocolEvents.nodup.sublist (List.filter_sublist.map _)

theorem eventPage_eq_ok : eventPage C party item checked now address limit cursor = .ok page ↔
    (1 ≤ limit ∧ limit ≤ 100) ∧ ∃ after, parseEventCursor cursor = .ok after ∧
      page = { asOfSlot := checked.finalizedSlot
               items := (eventRows C party now address limit.toNat after).rows.map item
               nextCursor :=
                 (eventRows C party now address limit.toNat after).next.map eventCursor } := by
  simp only [eventPage, bind_eq_ok, validateLimit_eq_ok, Except.ok.injEq]
  constructor
  · rintro ⟨_, ⟨hlimit, rfl⟩, after, hcursor, rfl⟩
    exact ⟨hlimit, after, hcursor, rfl⟩
  · rintro ⟨hlimit, after, hcursor, rfl⟩
    exact ⟨_, ⟨hlimit, rfl⟩, after, hcursor, rfl⟩

theorem exists_eventPage {after : Option EventKey} {rows : List (EventKey × EventRow)}
    (hrows : rows = publicEvents party now address) (hlimit : 1 ≤ limit ∧ limit ≤ 100)
    (hcursor : parseEventCursor cursor = .ok after) :
    ∃ page, eventPage C party item now now address limit cursor = .ok page ∧
      page.items = (Paging.page C.keyLe limit.toNat after rows).rows.map item ∧
      page.nextCursor = (Paging.page C.keyLe limit.toNat after rows).next.map eventCursor := by
  subst hrows
  exact ⟨_, eventPage_eq_ok.mpr ⟨hlimit, after, hcursor, rfl⟩, rfl, rfl⟩

theorem parse_next {after : Option EventKey} (hd : EventColumns now)
    (hnext : (eventRows C party now address limit.toNat after).next = some k) :
    parseEventCursor (some (eventCursor k)) = .ok (some k) := by
  obtain ⟨init, row, hlast⟩ := Paging.exists_last_of_next hnext
  have hmem : (k, row) ∈ Paging.ordered C.keyLe after (publicEvents party now address) := by
    refine List.mem_of_mem_take (i := limit.toNat) ?_
    rw [hlast]
    exact List.mem_append_right _ (List.mem_singleton_self _)
  obtain ⟨hsig, -, hidx⟩ := hd k row (mem_publicEvents.mp (Paging.mem_ordered.mp hmem).1).1
  refine parseEventCursor_eventCursor (fun hnil => ?_) hidx
  have hlen := congrArg List.length hnil
  rw [String.length_toList, List.length_nil] at hlen
  omega

/-- A walk through the pages of an address is a walk through the events it has at each of them. -/
theorem exists_walk {items : List α} {after : Option EventKey} (hd : EventColumns d)
    (h : PageWalk Operates
      (fun checked now cursor => eventPage C party item checked now address limit cursor)
      d cursor items) (hcursor : parseEventCursor cursor = .ok after) :
    ∃ tables rows, Paging.Walk C.keyLe limit.toNat after tables rows ∧ items = rows.map item ∧
      ∀ t ∈ tables, ∃ tr now, Run Operates d tr now ∧ t = publicEvents party now address := by
  induction h generalizing after with
  | @last d checked now cursor page tr tr' hchecked hnow hread hend =>
    obtain ⟨-, after', hafter, rfl⟩ := eventPage_eq_ok.mp hread
    cases hcursor.symm.trans hafter
    refine ⟨[_], _, .last (Option.map_eq_none_iff.mp hend), rfl, fun t ht => ?_⟩
    exact ⟨tr ++ tr', now, Run.append_iff.mpr ⟨checked, hchecked, hnow⟩, List.mem_singleton.mp ht⟩
  | @more d checked now cursor c page items tr tr' hchecked hnow hread hnext hrest ih =>
    have hrun : Run Operates d (tr ++ tr') now := Run.append_iff.mpr ⟨checked, hchecked, hnow⟩
    have hd' := hd.run hrun
    obtain ⟨-, after', hafter, rfl⟩ := eventPage_eq_ok.mp hread
    cases hcursor.symm.trans hafter
    obtain ⟨k, hk, rfl⟩ := Option.map_eq_some_iff.mp hnext
    obtain ⟨tables, rows, hwalk, rfl, htables⟩ := ih hd' (parse_next hd' hk)
    refine ⟨_ :: tables, _, .more hk hwalk, ?_, fun t ht => ?_⟩
    · rw [List.map_append]
      rfl
    · rcases List.mem_cons.mp ht with rfl | ht
      · exact ⟨tr ++ tr', now, hrun, rfl⟩
      · obtain ⟨tr'', now', hrun', rfl⟩ := htables t ht
        exact ⟨(tr ++ tr') ++ tr'', now', Run.append_iff.mpr ⟨now, hrun, hrun'⟩, rfl⟩

/-- A walk through the events an address has now is a walk through its pages while nothing goes
on. -/
theorem pageWalk_of_walk {after : Option EventKey} {tables : List (List (EventKey × EventRow))}
    {rows : List (EventKey × EventRow)} (hd : EventColumns now) (hlimit : 1 ≤ limit ∧ limit ≤ 100)
    (h : Paging.Walk C.keyLe limit.toNat after tables rows)
    (htables : ∀ t ∈ tables, t = publicEvents party now address)
    (hcursor : parseEventCursor cursor = .ok after) :
    PageWalk Idle
      (fun checked now cursor => eventPage C party item checked now address limit cursor) now cursor
      (rows.map item) := by
  have hidle : Run Idle now [] now := rfl
  induction h generalizing cursor with
  | @last after t hend =>
    have hrows : t = publicEvents party now address := htables _ List.mem_cons_self
    obtain ⟨page, hread, hitems, hnone⟩ := exists_eventPage hrows hlimit hcursor
    rw [← hitems]
    exact .last hidle hidle hread (hnone.trans (Option.map_eq_none_iff.mpr hend))
  | @more after k t rest items hnext _ ih =>
    obtain ⟨hrows, hrest⟩ := List.forall_mem_cons.mp htables
    obtain ⟨page, hread, hitems, hsome⟩ := exists_eventPage hrows hlimit hcursor
    subst hrows
    rw [List.map_append, ← hitems]
    refine .more hidle hidle hread ?_ (ih hrest (parse_next hd hnext))
    exact hsome.trans (Option.map_eq_some_iff.mpr ⟨k, hnext, rfl⟩)

theorem goesOn_eventPage {after : Option EventKey} {c : Text} (hd : EventColumns now)
    (hkey : ∀ e, key (item e) = e.1) (hcursor : parseEventCursor cursor = .ok after)
    (hread : eventPage C party item checked now address limit cursor = .ok page)
    (hnext : page.nextCursor = some c) : GoesOn C key limit.toNat after page c := by
  obtain ⟨-, after', hafter, rfl⟩ := eventPage_eq_ok.mp hread
  cases hcursor.symm.trans hafter
  obtain ⟨k, hk, rfl⟩ := Option.map_eq_some_iff.mp hnext
  refine ⟨?_, fun i hi => ?_, ?_⟩
  · rw [List.length_map]
    exact Paging.length_page_of_next hk
  · obtain ⟨e, he, rfl⟩ := List.mem_map.mp hi
    rw [hkey]
    exact (Paging.mem_of_mem_page he).2
  · obtain ⟨init, row, hlast⟩ := Paging.exists_last_of_next hk
    refine ⟨item (k, row), ?_, ?_⟩
    · rw [eventRows, Paging.rows_page, hlast]
      simp
    · rw [hkey]
      exact parse_next hd hk

theorem exactlyPaged_eventPage (hd : EventColumns d) (hlimit : 1 ≤ limit ∧ limit ≤ 100)
    (hkey : ∀ e, key (item e) = e.1) : ExactlyPaged
      (fun checked now cursor => eventPage C party item checked now address limit cursor)
      C key item party address limit.toNat d where
  starts := fun checked now => ⟨_, eventPage_eq_ok.mpr ⟨hlimit, none, rfl, rfl⟩⟩
  continues := by
    intro tr checked now cursor page c hrun hread hnext checked' now'
    obtain ⟨-, after, -, rfl⟩ := eventPage_eq_ok.mp hread
    obtain ⟨k, hk, rfl⟩ := Option.map_eq_some_iff.mp hnext
    exact ⟨_, eventPage_eq_ok.mpr ⟨hlimit, some k, parse_next (hd.run hrun) hk, rfl⟩⟩
  progress := fun tr checked now cursor after page c hrun hcursor hread hnext =>
    goesOn_eventPage (hd.run hrun) hkey hcursor hread hnext
  finishes := by
    intro tr now cursor after hrun hcursor
    obtain ⟨tables, rows, hwalk, htables⟩ :=
      Paging.exists_walk (r := C.keyLe) limit.toNat (publicEvents party now address) after
    exact ⟨_, pageWalk_of_walk (hd.run hrun) hlimit hwalk htables hcursor⟩
  sound := by
    intro checked now cursor page i hread hi
    obtain ⟨-, after, -, rfl⟩ := eventPage_eq_ok.mp hread
    obtain ⟨⟨k, r⟩, he, rfl⟩ := List.mem_map.mp hi
    obtain ⟨hk, hparty, hf⟩ := mem_publicEvents.mp (Paging.mem_of_mem_page he).1
    exact ⟨k, r, hk, hf, hparty, rfl⟩
  nodup := by
    intro items h
    obtain ⟨tables, rows, hwalk, rfl, htables⟩ := exists_walk hd h rfl
    have hpair := (hwalk.pairwise fun t ht => by
      obtain ⟨_, now, -, rfl⟩ := htables t ht
      exact nodup_publicEvents now).1
    rw [List.map_map, List.Nodup, List.pairwise_map]
    refine hpair.imp fun {a b} hne heq => hne ?_
    simp only [Function.comp_apply, hkey] at heq
    rw [heq]
    exact (Std.Total.total b.1 b.1).elim id id
  complete := by
    intro items h k r hk hf hparty
    obtain ⟨tables, rows, hwalk, rfl, htables⟩ := exists_walk hd h rfl
    refine List.mem_map_of_mem (hwalk.complete (by omega) ?_ ?_ rfl)
    · intro t ht
      obtain ⟨_, now, -, rfl⟩ := htables t ht
      exact nodup_publicEvents now
    · intro t ht
      obtain ⟨_, now, hrun, rfl⟩ := htables t ht
      exact mem_publicEvents.mpr ⟨finalized_event_of_run hrun hk hf, hparty, hf⟩

end Walks

def JobHistoryItem.key (item : JobHistoryItem) : EventKey :=
  { signature := item.signature, eventIndex := item.eventIndex }

def ProviderActivityItem.key (item : ProviderActivityItem) : EventKey :=
  { signature := item.signature, eventIndex := item.eventIndex }

/-- Finalized events stay as they are through every run of operations, and the pages of an address
come to them exactly: those of the job and those of the provider alike. -/
theorem history_append_only_and_paged (C : Collation) {d : Db} {limit : Int} (hd : EventColumns d)
    (hlimit : 1 ≤ limit ∧ limit ≤ 100) (address : Pubkey) :
    (∀ tr d' k r, Run Operates d tr d' → d.rawProtocolEvents.get k = some r →
      r.commitment = .finalized → d'.rawProtocolEvents.get k = some r) ∧
      ExactlyPaged (fun checked now cursor => jobHistory C checked now address limit cursor)
        C JobHistoryItem.key jobHistoryItem (·.subject) address limit.toNat d ∧
      ExactlyPaged (fun checked now cursor => providerActivity C checked now address limit cursor)
        C ProviderActivityItem.key providerActivityItem (·.actor) address limit.toNat d := by
  refine ⟨fun tr d' k r h hk hf => finalized_event_of_run h hk hf, ?_, ?_⟩
  · exact exactlyPaged_eventPage hd hlimit fun _ => rfl
  · exact exactlyPaged_eventPage hd hlimit fun _ => rfl

namespace Archive

/-- Texts by their code points. -/
def plain : Collation where
  le := (· ≤ ·)
  decidableLe := inferInstance
  total := le_total
  trans := fun _ _ _ => le_trans
  antisymm := fun _ _ => le_antisymm

def signature : String := String.ofList (List.replicate 64 '1')

def created : EventRow :=
  { slot := 5, programId := zeroKey, kind := 1, subject := zeroKey, actor := zeroKey, amount := 10,
    eventTimestamp := 0, commitment := .finalized }

def funded : EventRow := { created with kind := 2 }

/-- A database with two finalized events. -/
def db : Db :=
  { Db.fresh with
    rawProtocolEvents := (Table.empty.put ⟨signature, 1⟩ funded).put ⟨signature, 0⟩ created }

/-- A third event is delivered while the pages are read. -/
def accepted : Operation :=
  .insertEvent { signature, eventIndex := 2, slot := 5, programId := zeroKey, kind := 3,
                 subject := zeroKey, actor := zeroKey, amount := 10, eventTimestamp := 0,
                 commitment := .finalized }

def later : Db := accepted.after db

theorem eventColumns : EventColumns db := by
  intro k r hk
  simp only [db, Table.get_put] at hk
  split at hk
  · rename_i hkey
    subst hkey
    decide
  · split at hk
    · rename_i hkey
      subst hkey
      decide
    · cases hk

theorem operates_accepted : Operates db accepted later :=
  Operation.operates_after (by decide +kernel)

/-- What a page of the job shows, and where the next one starts. -/
def shows (checked now : Db) (cursor : Option Text) : Option (List EventKey × Option Text) :=
  (jobHistory plain checked now zeroKey 1 cursor).toOption.map fun page =>
    (page.items.map JobHistoryItem.key, page.nextCursor)

theorem of_shows {checked now : Db} {cursor next : Option Text} {keys : List EventKey}
    (h : shows checked now cursor = some (keys, next)) :
    ∃ page, jobHistory plain checked now zeroKey 1 cursor = .ok page ∧
      page.items.map JobHistoryItem.key = keys ∧ page.nextCursor = next := by
  rw [shows] at h
  cases hread : jobHistory plain checked now zeroKey 1 cursor with
  | error e =>
    rw [hread] at h
    cases h
  | ok page =>
    rw [hread] at h
    cases h
    exact ⟨page, rfl, rfl, rfl⟩

theorem walk : ∃ items, PageWalk Operates
    (fun checked now cursor => jobHistory plain checked now zeroKey 1 cursor) db none items ∧
      items.map JobHistoryItem.key = [⟨signature, 0⟩, ⟨signature, 1⟩, ⟨signature, 2⟩] := by
  have hfirst : shows db db none =
      some ([⟨signature, 0⟩], some (eventCursor ⟨signature, 0⟩)) := by decide +kernel
  have hsecond : shows later later (some (eventCursor ⟨signature, 0⟩)) =
      some ([⟨signature, 1⟩], some (eventCursor ⟨signature, 1⟩)) := by decide +kernel
  have hthird : shows later later (some (eventCursor ⟨signature, 1⟩)) =
      some ([⟨signature, 2⟩], none) := by decide +kernel
  obtain ⟨page₁, hread₁, hkeys₁, hnext₁⟩ := of_shows hfirst
  obtain ⟨page₂, hread₂, hkeys₂, hnext₂⟩ := of_shows hsecond
  obtain ⟨page₃, hread₃, hkeys₃, hnext₃⟩ := of_shows hthird
  refine ⟨page₁.items ++ (page₂.items ++ page₃.items), ?_, ?_⟩
  · have hnow : Run Operates db [⟨db, accepted, later⟩] later := ⟨rfl, operates_accepted, rfl⟩
    have hdb : Run Operates db [] db := rfl
    have hlater : Run Operates later [] later := rfl
    exact .more hdb hdb hread₁ hnext₁ (.more hnow hlater hread₂ hnext₂
      (.last hlater hlater hread₃ hnext₃))
  · rw [List.map_append, List.map_append, hkeys₁, hkeys₂, hkeys₃]
    rfl

theorem history_paged : ∃ items, PageWalk Operates
    (fun checked now cursor => jobHistory plain checked now zeroKey 1 cursor) db none items ∧
      (items.map JobHistoryItem.key).Nodup ∧
      jobHistoryItem (⟨signature, 0⟩, created) ∈ items ∧
      jobHistoryItem (⟨signature, 1⟩, funded) ∈ items ∧
      (∃ quiet, PageWalk Idle
        (fun checked now cursor => jobHistory plain checked now zeroKey 1 cursor) db none quiet ∧
          jobHistoryItem (⟨signature, 1⟩, funded) ∈ quiet) ∧
      ∃ quiet, PageWalk Idle
        (fun checked now cursor => jobHistory plain checked now zeroKey 1 cursor) later
        (some (eventCursor ⟨signature, 0⟩)) quiet := by
  obtain ⟨-, hpaged, -⟩ := history_append_only_and_paged plain eventColumns
    (show 1 ≤ (1 : Int) ∧ (1 : Int) ≤ 100 by decide) zeroKey
  obtain ⟨items, hwalk, -⟩ := walk
  refine ⟨items, hwalk, hpaged.nodup items hwalk, ?_, ?_, ?_, ?_⟩
  · exact hpaged.complete items hwalk _ _ rfl rfl rfl
  · exact hpaged.complete items hwalk _ _ rfl rfl rfl
  · obtain ⟨quiet, hquiet⟩ := hpaged.finishes [] db none none rfl rfl
    have hwalks : PageWalk Operates (fun checked now cursor =>
        jobHistory plain checked now zeroKey 1 cursor) db none quiet :=
      hquiet.mono fun _ _ _ h => h.elim
    exact ⟨quiet, hquiet, hpaged.complete quiet hwalks _ _ rfl rfl rfl⟩
  · exact hpaged.finishes [⟨db, accepted, later⟩] later _ _ ⟨rfl, operates_accepted, rfl⟩
      (parseEventCursor_eventCursor (by decide) (by decide))

end Archive

end AgentBond.Indexer
