import A2ARegistry.Base.EventStream
import A2ARegistry.Events.Proofs.Delivery
import A2ARegistry.Events.EventBus

namespace A2ARegistry.Events
open Base EventStream

section Framing

theorem joinBy_lines (lines : List String) : (joinBy "\n" (lines ++ [""])).toList =
    (lines.map String.toList).flatMap (fun line => line ++ ['\n']) := by
  induction lines with
  | nil => rfl
  | cons line lines ih =>
    obtain ⟨next, more, hmore⟩ : ∃ next more, lines ++ [""] = next :: more := by
      cases lines with
      | nil => exact ⟨_, _, rfl⟩
      | cons next more => exact ⟨_, _, rfl⟩
    rw [joinBy, String.toList_ofList] at ih ⊢
    rw [hmore] at ih
    rw [List.cons_append, hmore, List.map_cons, List.map_cons, List.intercalate_cons_cons, List.map_cons,
      List.flatMap_cons, ← ih, List.map_cons]
    simp

theorem joinBy_empty (parts : List String) : (joinBy "" parts).toList = parts.flatMap String.toList := by
  rw [joinBy, String.toList_ofList]
  induction parts with
  | nil => rfl
  | cons part parts ih =>
    cases parts with
    | nil => simp
    | cons next more =>
      rw [List.map_cons, List.map_cons, List.intercalate_cons_cons, ← List.map_cons, ih]
      simp

theorem mem_of_intercalate {sep c : Char} {part : List Char} {parts : List (List Char)} (hpart : part ∈ parts)
    (hc : c ∈ part) : c ∈ [sep].intercalate parts := by
  induction parts with
  | nil => cases hpart
  | cons first parts ih =>
    cases parts with
    | nil =>
      rw [List.mem_singleton.mp hpart] at hc
      simpa using hc
    | cons next more =>
      rw [List.intercalate_cons_cons, List.mem_append, List.mem_append]
      rcases List.mem_cons.mp hpart with rfl | hpart
      · exact Or.inl (Or.inl hc)
      · exact Or.inr (ih hpart)

/-- A part of a text that was split is within the text, without the separator. -/
theorem mem_split {sep c : Char} {cs part : List Char} (hpart : part ∈ cs.splitOn sep) (hc : c ∈ part) :
    c ∈ cs ∧ c ≠ sep := by
  have hmem : c ∈ [sep].intercalate (cs.splitOn sep) := mem_of_intercalate hpart hc
  rw [List.intercalate_splitOn] at hmem
  have hsep := splitOnP_letters hpart c hc
  exact ⟨hmem, by simpa using hsep⟩

/-- The frame of a message. -/
def frame (m : Message) : String := sseFormat m.event m.data m.lastEventId

/-- The lines of a message whose texts fit in lines: none is empty. -/
theorem sseLines_inline {m : Message} (hm : m.Inlined) : ∀ line ∈ sseLines m.event m.data m.lastEventId,
    Inline line.toList ∧ line.toList ≠ [] ∧ line.toList.head? ≠ some '\ufeff' := by
  have hname : ∀ (name text : String), Inline name.toList → Inline text.toList → Inline (name ++ text).toList := by
    intro name text hn ht c hc
    rw [String.toList_append] at hc
    rcases List.mem_append.mp hc with hc | hc
    · exact hn c hc
    · exact ht c hc
  intro line hline
  rcases List.mem_append.mp hline with hline | hline
  · rcases List.mem_append.mp hline with hline | hline
    · rw [List.mem_singleton.mp hline]
      refine ⟨hname _ _ (by decide) hm.event, by simp, by simp⟩
    · split at hline
      · cases hline
      · rw [List.mem_singleton.mp hline]
        refine ⟨hname _ _ (by decide) hm.lastEventId, by simp, by simp⟩
  · obtain ⟨part, hpart, rfl⟩ := List.mem_map.mp hline
    obtain ⟨cs, hcs, rfl⟩ := List.mem_map.mp hpart
    have hinline : Inline cs := by
      intro c hc
      obtain ⟨hmem, hsep⟩ := mem_split hcs hc
      exact ⟨hsep, fun he => hm.data (he ▸ hmem)⟩
    refine ⟨hname _ _ (by decide) (by simpa using hinline), by simp, by simp⟩

/-- Frames of messages whose texts fit in lines are read as no message at all. -/
theorem frames_open {events : List Message} (h : ∀ m ∈ events, m.Inlined) :
    parse (joinBy "" (events.map frame)) = [] := by
  have hlines : ∀ line ∈ events.flatMap (fun m => (sseLines m.event m.data m.lastEventId).map String.toList),
      Inline line ∧ line ≠ [] ∧ line.head? ≠ some '\ufeff' := by
    intro line hline
    obtain ⟨m, hm, hline⟩ := List.mem_flatMap.mp hline
    obtain ⟨text, htext, rfl⟩ := List.mem_map.mp hline
    exact sseLines_inline (h m hm) text htext
  refine parse_open hlines ?_
  rw [joinBy_empty, List.flatMap_map, List.flatMap_assoc]
  apply List.flatMap_congr
  intro m _
  exact joinBy_lines _

/-- Only the stream of no events is read back. -/
theorem round_trip_iff (events : List Message) : parse (joinBy "" (events.map frame)) = events ↔ events = [] := by
  constructor
  · intro h
    have hinlined : ∀ m ∈ events, m.Inlined := fun m hm => parse_inlined _ m (h.symm ▸ hm)
    rw [← h, frames_open hinlined]
  · rintro rfl
    rfl

/-- An event that is framed with the line end of its last field and nothing else. -/
theorem event_lost : ¬ ∀ events : List Message, parse (joinBy "" (events.map frame)) = events := by
  intro h
  have hread := h [⟨"task.created", "{}", "evt_1"⟩]
  exact absurd hread (by decide)

end Framing

section Tenants

/-- The bus of the server. -/
def serverBus : Traffic TaskEvent := .start (.create defaultMaxQueueSize .dropOldest)

/-- The client of a tenant is told of no event: none of those on the bus carries a tenant. -/
theorem streamed_nothing {tenant : String} (htenant : tenant ≠ "") (received : List TaskEvent) :
    SseQuery.streamed { tenant := some tenant } received = [] := by
  rw [SseQuery.streamed, List.filter_eq_nil_iff]
  intro event _
  have hne : ("" == tenant) = false := beq_false_of_ne (Ne.symm htenant)
  simp [SseQuery.passes, SseQuery.tenantFilter, TaskEvent.bridged, htenant, hne, Option.filter]

/-- Its stream tells exactly of the events about tasks of the tenant as long as there are none. -/
theorem tenant_stream_iff {tenant : String} (htenant : tenant ≠ "") (steps : List (BusStep TaskEvent)) (id : String) :
    let s := exec Traffic.step serverBus steps
    SseQuery.streamed { tenant := some tenant } (s.received id) = (s.published id).filter (fun e => e.tenant = tenant) ↔
      ∀ event ∈ s.published id, event.tenant ≠ tenant := by
  dsimp only
  rw [streamed_nothing htenant, eq_comm, List.filter_eq_nil_iff]
  simp only [decide_eq_true_eq, ne_eq]

/-- An event about a task of a tenant. -/
def createdFor (tenant : String) : TaskEvent :=
  { eventType := "created", data := [("id", .str "t_1"), ("tenant", .str tenant)], tenant, eventId := "evt_1",
    timestamp := "1.0" }

/-- A client subscribes, an event is published, and the client reads it. -/
def oneEvent (event : TaskEvent) : List (BusStep TaskEvent) := [.subscribe "sse_1", .publish event, .read "sse_1"]

theorem tenant_stream_sample :
    SseQuery.streamed { tenant := some "acme" }
        ((exec Traffic.step serverBus (oneEvent (createdFor "globex"))).received "sse_1") =
      ((exec Traffic.step serverBus (oneEvent (createdFor "globex"))).published "sse_1").filter
        (fun e => e.tenant = "acme") := by
  refine (tenant_stream_iff (by decide) (oneEvent (createdFor "globex")) "sse_1").mpr fun event hevent => ?_
  obtain rfl : event = createdFor "globex" := List.mem_singleton.mp hevent
  decide

/-- A client reads the event about a task of its tenant, and is not told of it. -/
theorem tenant_event_lost : ¬ ∀ (tenant : String) (steps : List (BusStep TaskEvent)) (id : String), tenant ≠ "" →
    let s := exec Traffic.step serverBus steps
    (s.queues id).map Queue.items = some [] →
      SseQuery.streamed { tenant := some tenant } (s.received id) =
        (s.published id).filter (fun e => e.tenant = tenant) := by
  intro h
  have hread := congrArg List.length (h "acme" (oneEvent (createdFor "acme")) "sse_1" (by decide) rfl)
  exact absurd hread (by decide)

end Tenants

end A2ARegistry.Events
