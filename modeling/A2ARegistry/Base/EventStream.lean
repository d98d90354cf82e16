namespace A2ARegistry.Base.EventStream

/-- A message as a reader of an event stream dispatches it. -/
structure Message where
  event : String
  data : String
  lastEventId : String
deriving DecidableEq, Repr

/-- The lines of a stream, which end at a CR LF pair, at an LF or at a CR. `line` is what is read of the line
so far. What comes after the last line end is no line. -/
def linesFrom : List Char → List Char → List (List Char)
  | _, [] => []
  | line, '\r' :: '\n' :: cs => line :: linesFrom [] cs
  | line, c :: cs => if c = '\n' ∨ c = '\r' then line :: linesFrom [] cs else linesFrom (line ++ [c]) cs

/-- What a reader has gathered for the next message. -/
structure Buffers where
  event : List Char
  data : List Char
  lastEventId : List Char

def Buffers.empty : Buffers := ⟨[], [], []⟩

namespace Buffers

/-- A field. An id with a NUL is ignored, and so are the fields that say nothing about a message. -/
def field (b : Buffers) (name value : List Char) : Buffers :=
  if name = "event".toList then { b with event := value }
  else if name = "data".toList then { b with data := b.data ++ value ++ ['\n'] }
  else if name = "id".toList then if '\x00' ∈ value then b else { b with lastEventId := value }
  else b

/-- The value of a field, without the blank that separates it from the colon. -/
def valueOf : List Char → List Char
  | ' ' :: value => value
  | value => value

/-- A line that is not empty: a comment, a field, or the name of a field without a value. -/
def read (b : Buffers) (line : List Char) : Buffers :=
  match line.dropWhile (· ≠ ':') with
  | [] => b.field line []
  | _ :: value =>
    let name := line.takeWhile (· ≠ ':')
    if name = [] then b else b.field name (valueOf value)

/-- The message that an empty line completes; there is none without data. -/
def message (b : Buffers) : Option Message :=
  if b.data = [] then none
  else some {
    event := if b.event = [] then "message" else String.ofList b.event
    data := String.ofList b.data.dropLast
    lastEventId := String.ofList b.lastEventId }

/-- The buffers behind an empty line. The id stays for the messages to come. -/
def next (b : Buffers) : Buffers := { b with event := [], data := [] }

end Buffers

def interpret : Buffers → List (List Char) → List Message
  | _, [] => []
  | b, [] :: lines => b.message.toList ++ interpret b.next lines
  | b, line :: lines => interpret (b.read line) lines

/-- The messages of a stream that is read to its end, behind a byte order mark if it has one. -/
def parse (stream : String) : List Message :=
  match stream.toList with
  | '\ufeff' :: cs => interpret .empty (linesFrom [] cs)
  | cs => interpret .empty (linesFrom [] cs)

/-- A text within a line. -/
def Inline (cs : List Char) : Prop := ∀ c ∈ cs, c ≠ '\n' ∧ c ≠ '\r'

instance (cs : List Char) : Decidable (Inline cs) := List.decidableBAll _ _

section Lines

variable {line cs : List Char}

theorem linesFrom_end (rest : List Char) : linesFrom line ('\n' :: rest) = line :: linesFrom [] rest := by
  simp [linesFrom]

theorem linesFrom_char {c : Char} (h : c ≠ '\n' ∧ c ≠ '\r') (rest : List Char) :
    linesFrom line (c :: rest) = linesFrom (line ++ [c]) rest := by
  rw [linesFrom]
  · simp [h]
  · intro more he
    exact absurd he h.2

/-- A text within a line, and the end of the line. -/
theorem linesFrom_inline (h : Inline cs) (rest : List Char) :
    linesFrom line (cs ++ '\n' :: rest) = (line ++ cs) :: linesFrom [] rest := by
  induction cs generalizing line with
  | nil => rw [List.nil_append, linesFrom_end, List.append_nil]
  | cons c cs ih =>
    obtain ⟨hc, hcs⟩ := List.forall_mem_cons.mp h
    rw [List.cons_append, linesFrom_char hc, ih hcs, List.append_assoc]
    rfl

/-- Lines that are written one by one are read back. -/
theorem linesFrom_written {lines : List (List Char)} (h : ∀ l ∈ lines, Inline l) :
    linesFrom [] (lines.flatMap (fun l => l ++ ['\n'])) = lines := by
  induction lines with
  | nil => rfl
  | cons l lines ih =>
    obtain ⟨hl, hlines⟩ := List.forall_mem_cons.mp h
    have happend : (l ++ ['\n']) ++ lines.flatMap (fun l => l ++ ['\n']) =
        l ++ '\n' :: lines.flatMap (fun l => l ++ ['\n']) := by simp
    rw [List.flatMap_cons, happend, linesFrom_inline hl, ih hlines, List.nil_append]

theorem linesFrom_all_inline (hline : Inline line) : ∀ l ∈ linesFrom line cs, Inline l := by
  have hnil : Inline [] := fun _ hc => nomatch hc
  induction line, cs using linesFrom.induct with
  | case1 => simp [linesFrom]
  | case2 line cs ih =>
    rw [linesFrom]
    exact List.forall_mem_cons.mpr ⟨hline, ih hnil⟩
  | case3 line c cs hpair hend ih =>
    rw [linesFrom, if_pos hend]
    · exact List.forall_mem_cons.mpr ⟨hline, ih hnil⟩
    · exact hpair
  | case4 line c cs hpair hend ih =>
    rw [linesFrom, if_neg hend]
    · apply ih
      intro d hd
      rcases List.mem_append.mp hd with hd | hd
      · exact hline d hd
      · rw [List.mem_singleton.mp hd]
        exact not_or.mp hend
    · exact hpair

end Lines

/-- Nothing is dispatched without an empty line. -/
theorem interpret_open {lines : List (List Char)} (h : ∀ l ∈ lines, l ≠ []) (b : Buffers) :
    interpret b lines = [] := by
  induction lines generalizing b with
  | nil => rfl
  | cons l lines ih =>
    obtain ⟨hl, hlines⟩ := List.forall_mem_cons.mp h
    rw [interpret]
    · exact ih hlines _
    · exact hl

/-- Buffers that were filled from texts within lines. -/
structure Buffers.Inlined (b : Buffers) : Prop where
  event : Inline b.event
  data : '\r' ∉ b.data
  lastEventId : Inline b.lastEventId

namespace Buffers

variable {b : Buffers}

theorem field_inlined (hb : b.Inlined) (name : List Char) {value : List Char} (hv : Inline value) :
    (b.field name value).Inlined := by
  unfold field
  split
  · exact ⟨hv, hb.data, hb.lastEventId⟩
  · split
    · refine ⟨hb.event, ?_, hb.lastEventId⟩
      have hvalue : '\r' ∉ value := fun hr => (hv _ hr).2 rfl
      simp [hb.data, hvalue]
    · split
      · split
        · exact hb
        · exact ⟨hb.event, hb.data, hv⟩
      · exact hb

theorem read_inlined (hb : b.Inlined) {line : List Char} (hline : Inline line) : (b.read line).Inlined := by
  unfold read
  split
  · exact field_inlined hb line (fun _ hc => nomatch hc)
  · rename_i colon value hdrop
    dsimp only
    split
    · exact hb
    · apply field_inlined hb
      have hvalue : Inline value := by
        intro c hc
        have hmem : c ∈ line.dropWhile (· ≠ ':') := hdrop ▸ List.mem_cons_of_mem colon hc
        exact hline c ((List.dropWhile_sublist _).mem hmem)
      unfold valueOf
      split
      · intro c hc
        exact hvalue c (List.mem_cons_of_mem _ hc)
      · exact hvalue

theorem next_inlined (hb : b.Inlined) : b.next.Inlined := 
  ⟨fun _ hc => (nomatch hc), fun hc => (nomatch hc), hb.lastEventId⟩

end Buffers

/-- No event name and no id has a line end in it, and no data a CR. -/
structure Message.Inlined (m : Message) : Prop where
  event : Inline m.event.toList
  data : '\r' ∉ m.data.toList
  lastEventId : Inline m.lastEventId.toList

theorem message_inlined {b : Buffers} (hb : b.Inlined) {m : Message} (hm : b.message = some m) : m.Inlined := by
  unfold Buffers.message at hm
  split at hm
  · cases hm
  · cases hm
    refine ⟨?_, ?_, ?_⟩
    · dsimp only
      split
      · exact (by decide : Inline "message".toList)
      · simpa using hb.event
    · intro hr
      rw [String.toList_ofList] at hr
      exact hb.data ((List.dropLast_sublist _).mem hr)
    · simpa using hb.lastEventId

theorem interpret_inlined {b : Buffers} (hb : b.Inlined) {lines : List (List Char)} (h : ∀ l ∈ lines, Inline l) :
    ∀ m ∈ interpret b lines, m.Inlined := by
  induction lines generalizing b with
  | nil => exact fun _ hm => nomatch hm
  | cons l lines ih =>
    obtain ⟨hl, hlines⟩ := List.forall_mem_cons.mp h
    cases l with
    | nil =>
      intro m hm
      rcases List.mem_append.mp hm with hm | hm
      · exact message_inlined hb (Option.mem_toList.mp hm)
      · exact ih (Buffers.next_inlined hb) hlines m hm
    | cons c cs => exact ih (Buffers.read_inlined hb hl) hlines

/-- So is every message of a stream. -/
theorem parse_inlined (stream : String) : ∀ m ∈ parse stream, m.Inlined := by
  have hnil : Inline [] := fun _ hc => nomatch hc
  have hempty : Buffers.empty.Inlined := ⟨hnil, fun hc => (nomatch hc), hnil⟩
  unfold parse
  split
  · exact interpret_inlined hempty (linesFrom_all_inline hnil)
  · exact interpret_inlined hempty (linesFrom_all_inline hnil)

/-- Lines none of which is empty make no message. -/
theorem parse_open {lines : List (List Char)} (h : ∀ l ∈ lines, Inline l ∧ l ≠ [] ∧ l.head? ≠ some '\ufeff')
    {stream : String} (hstream : stream.toList = lines.flatMap (fun l => l ++ ['\n'])) : parse stream = [] := by
  unfold parse
  split
  · rename_i cs hcs
    cases lines with
    | nil => simp_all
    | cons l lines =>
      obtain ⟨_, hne, hmark⟩ := h l (List.mem_cons_self ..)
      cases l with
      | nil => exact absurd rfl hne
      | cons c l =>
        rw [hstream] at hcs
        exact absurd (congrArg List.head? hcs) hmark
  · rw [hstream, linesFrom_written fun l hl => (h l hl).1]
    exact interpret_open (fun l hl => (h l hl).2.1) _

end A2ARegistry.Base.EventStream
