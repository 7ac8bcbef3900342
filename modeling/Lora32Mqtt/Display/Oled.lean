import Lora32Mqtt.Base.CString

/-!
# The display (`oled_print_message`)

The function copies the message and cuts the copy into lines in place: it plants
a NUL behind each line, hands the line to the driver of the panel and puts the
character back.  The driver is not part of the source; what it is called with is.
-/

namespace Lora32Mqtt

section Lines

variable {α : Type} (width : Nat)

/-- At most so many lines of a text, with the numbers of their pages. -/
def numberedLines : Nat → Nat → List α → List (Nat × List α)
  | 0, _, _ => []
  | _ + 1, _, [] => []
  | lines + 1, page, head :: tail =>
      (page, (head :: tail).take width) ::
        numberedLines lines (page + 1) ((head :: tail).drop width)

variable {width} {lines page : Nat} {text : List α}

@[simp] theorem numberedLines_nil :
    numberedLines width lines page ([] : List α) = [] := by
  cases lines <;> rfl

theorem numberedLines_succ (nonempty : text ≠ []) :
    numberedLines width (lines + 1) page text =
      (page, text.take width) ::
        numberedLines width lines (page + 1) (text.drop width) := by
  cases text with
  | nil => exact absurd rfl nonempty
  | cons head tail => rfl

/-- Nothing is lost and nothing repeated up to the last line. -/
theorem flatten_numberedLines :
    ((numberedLines width lines page text).map Prod.snd).flatten =
      text.take (width * lines) := by
  induction lines generalizing page text with
  | zero => simp [numberedLines]
  | succ lines induction =>
      by_cases empty : text = []
      · simp [empty]
      · rw [numberedLines_succ empty, List.map_cons, List.flatten_cons, induction,
          Nat.mul_succ, Nat.add_comm, List.take_add]

theorem length_le_of_mem_numberedLines {line : Nat × List α}
    (member : line ∈ numberedLines width lines page text) :
    line.2.length ≤ width := by
  induction lines generalizing page text with
  | zero => simp [numberedLines] at member
  | succ lines induction =>
      by_cases empty : text = []
      · simp [empty] at member
      · rw [numberedLines_succ empty] at member
        rcases List.mem_cons.mp member with rfl | later
        · exact List.length_take_le _ _
        · exact induction later

theorem page_le_of_mem_numberedLines {line : Nat × List α}
    (member : line ∈ numberedLines width lines page text) : page ≤ line.1 := by
  induction lines generalizing page text with
  | zero => simp [numberedLines] at member
  | succ lines induction =>
      by_cases empty : text = []
      · simp [empty] at member
      · rw [numberedLines_succ empty] at member
        rcases List.mem_cons.mp member with rfl | later
        · exact Nat.le_refl _
        · exact Nat.le_of_succ_le (induction later)

theorem pages_numberedLines_increase :
    ((numberedLines width lines page text).map Prod.fst).Pairwise (· < ·) := by
  induction lines generalizing page text with
  | zero => simp [numberedLines]
  | succ lines induction =>
      by_cases empty : text = []
      · simp [empty]
      · rw [numberedLines_succ empty, List.map_cons, List.pairwise_cons]
        refine ⟨fun later member => ?_, induction⟩
        obtain ⟨line, lineMember, rfl⟩ := List.mem_map.mp member
        exact page_le_of_mem_numberedLines lineMember

/-- The pages stay below a bound if there are lines or characters for no more. -/
theorem pages_numberedLines_below {bound : Nat} (low : page ≤ bound) :
    (∀ line ∈ numberedLines width lines page text, line.1 < bound) ↔
      lines ≤ bound - page ∨ text.length ≤ width * (bound - page) := by
  induction lines generalizing page text with
  | zero => simp [numberedLines]
  | succ lines induction =>
      by_cases empty : text = []
      · simp [empty]
      have positive : 0 < text.length := List.length_pos_iff.mpr empty
      rw [numberedLines_succ empty, List.forall_mem_cons]
      rcases Nat.lt_or_eq_of_le low with below | rfl
      · obtain ⟨more, rfl⟩ := Nat.exists_eq_add_of_le below
        rw [induction below, List.length_drop,
          show page + 1 + more - (page + 1) = more by omega,
          show page + 1 + more - page = more + 1 by omega, Nat.mul_succ]
        constructor
        · rintro ⟨_, short⟩
          omega
        · intro short
          exact ⟨by omega, by omega⟩
      · simp [empty]

theorem filter_numberedLines {bound : Nat} (low : page ≤ bound) :
    (numberedLines width lines page text).filter (fun line => line.1 < bound) =
      numberedLines width (min lines (bound - page)) page text := by
  induction lines generalizing page text with
  | zero => simp [numberedLines]
  | succ lines induction =>
      by_cases empty : text = []
      · simp [empty]
      rcases Nat.lt_or_eq_of_le low with below | rfl
      · rw [numberedLines_succ empty, List.filter_cons_of_pos (by simpa using below),
          induction below,
          show min (lines + 1) (bound - page) =
            min lines (bound - (page + 1)) + 1 by omega,
          numberedLines_succ empty]
      · rw [List.filter_eq_nil_iff.mpr, Nat.sub_self, Nat.min_zero, numberedLines]
        intro line member
        have := page_le_of_mem_numberedLines member
        simpa using this

end Lines

def maxCharsPerLine : Nat := 16

def maxLines : Nat := 8

def sizeofBuffer : Nat := 256

/-- The pages of `SSD1306_PANEL_128x64`, counted from 0. -/
def panelPages : Nat := 8

/-- What the driver of the panel is asked for. -/
inductive DisplayCall (Handle : Type) where
  | clearDisplay (handle : Handle) (invert : Bool)
  | displayText (handle : Handle) (page : Nat) (text : List UInt8) (invert : Bool)
  deriving DecidableEq

namespace DisplayCall

def pageText {Handle : Type} : DisplayCall Handle → Option (Nat × List UInt8)
  | .clearDisplay _ _ => none
  | .displayText _ page text _ => some (page, text)

end DisplayCall

/-- The loop, with `line_start` as an offset into the buffer.  `rounds` bounds
the number of times the condition is tested. -/
def oledLoop {Handle : Type} (handle : Handle) :
    Nat → List UInt8 → Nat → Nat → Option (List (DisplayCall Handle))
  | 0, _, _, _ => none
  | rounds + 1, buffer, lineStart, currentLine => do
      let first ← buffer[lineStart]?
      if first ≠ 0 ∧ currentLine < maxLines then
        let line ← cString (buffer.drop lineStart)
        if maxCharsPerLine < line.length then
          let temp ← buffer[lineStart + maxCharsPerLine]?
          let planted ← storeAt buffer (lineStart + maxCharsPerLine) 0
          let text ← cString (planted.drop lineStart)
          let restored ← storeAt planted (lineStart + maxCharsPerLine) temp
          let later ← oledLoop handle rounds restored
            (lineStart + maxCharsPerLine) (currentLine + 1)
          pure (.displayText handle (currentLine + 1) text false :: later)
        else pure [.displayText handle (currentLine + 1) line false]
      else pure []

/-- `oled_print_message (handle, message)`; `buffer` is what the array on the
stack holds before. -/
def oledPrintMessage {Handle : Type} (rounds : Nat) (handle : Option Handle)
    (message : CString) (buffer : List UInt8) :
    Option (List (DisplayCall Handle)) :=
  match handle with
  | none => some []
  | some handle => do
      let buffer := strncpy buffer message.text (sizeofBuffer - 1)
      let buffer ← storeAt buffer (sizeofBuffer - 1) 0
      let calls ← oledLoop handle rounds buffer 0 0
      pure (.clearDisplay handle false :: calls)

section Loop

variable {Handle : Type} {handle : Handle} {buffer text junk : List UInt8}
  {rounds lineStart currentLine : Nat}

/-- Putting the character back undoes the planted NUL, so a round leaves the
buffer as it was and shows the first characters that are left. -/
theorem oledLoop_long (noNul : 0 ∉ text)
    (reading : buffer.drop lineStart = text ++ 0 :: junk)
    (long : maxCharsPerLine < text.length) (more : currentLine < maxLines) :
    oledLoop handle (rounds + 1) buffer lineStart currentLine =
      (oledLoop handle rounds buffer (lineStart + maxCharsPerLine)
        (currentLine + 1)).map
          (.displayText handle (currentLine + 1) (text.take maxCharsPerLine)
            false :: ·) := by
  obtain ⟨first, rest, rfl⟩ := List.exists_cons_of_length_pos
    (Nat.lt_of_le_of_lt (Nat.zero_le _) long)
  have firstAt : buffer[lineStart]? = some first := getElem?_of_drop reading 0
  have nonzero : first ≠ 0 := (noNul_cons noNul).1
  have line : cString (buffer.drop lineStart) = some (first :: rest) := by
    rw [reading, cString_append_nul noNul]
  obtain ⟨temp, tempAt⟩ : ∃ temp,
      buffer[lineStart + maxCharsPerLine]? = some temp := by
    rw [getElem?_of_drop reading, List.getElem?_append_left long]
    exact ⟨_, List.getElem?_eq_getElem long⟩
  obtain ⟨inside, tempEq⟩ := List.getElem?_eq_some_iff.mp tempAt
  have planted : storeAt buffer (lineStart + maxCharsPerLine) 0 =
      some (buffer.set (lineStart + maxCharsPerLine) 0) := if_pos inside
  have shown : cString
      ((buffer.set (lineStart + maxCharsPerLine) 0).drop lineStart) =
        some ((first :: rest).take maxCharsPerLine) := by
    rw [List.drop_set, if_neg (by omega), Nat.add_sub_cancel_left, reading,
      List.set_append_left _ _ long, List.set_eq_take_append_cons_drop,
      if_pos long, List.append_assoc]
    exact cString_append_nul (fun member => noNul (List.mem_of_mem_take member)) _
  have restored : storeAt (buffer.set (lineStart + maxCharsPerLine) 0)
      (lineStart + maxCharsPerLine) temp = some buffer := by
    rw [storeAt, List.length_set, if_pos inside, List.set_set, ← tempEq,
      List.set_getElem_self]
  simp only [oledLoop, firstAt, Option.bind_eq_bind, Option.bind_some, line,
    tempAt, planted, shown, restored, if_pos (And.intro nonzero more),
    if_pos long]
  cases oledLoop handle rounds buffer (lineStart + maxCharsPerLine)
    (currentLine + 1) <;> rfl

theorem oledLoop_eq (noNul : 0 ∉ text)
    (reading : buffer.drop lineStart = text ++ 0 :: junk)
    (low : currentLine ≤ maxLines) (enough : maxLines - currentLine < rounds) :
    oledLoop handle rounds buffer lineStart currentLine = some
      ((numberedLines maxCharsPerLine (maxLines - currentLine) (currentLine + 1)
        text).map fun line => .displayText handle line.1 line.2 false) := by
  induction rounds generalizing text lineStart currentLine with
  | zero => omega
  | succ rounds induction =>
      by_cases empty : text = []
      · subst empty
        have firstAt : buffer[lineStart]? = some 0 := getElem?_of_drop reading 0
        simp [oledLoop, firstAt]
      rcases Nat.lt_or_eq_of_le low with more | rfl
      · obtain ⟨lines, left⟩ : ∃ lines, maxLines - currentLine = lines + 1 :=
          Nat.exists_eq_succ_of_ne_zero (by omega)
        rw [left, numberedLines_succ empty, List.map_cons]
        by_cases long : maxCharsPerLine < text.length
        · have after : buffer.drop (lineStart + maxCharsPerLine) =
              text.drop maxCharsPerLine ++ 0 :: junk := by
            rw [← List.drop_drop, reading,
              List.drop_append_of_le_length (Nat.le_of_lt long)]
          have noNulLeft : 0 ∉ text.drop maxCharsPerLine := fun member =>
            noNul (List.mem_of_mem_drop member)
          rw [oledLoop_long noNul reading long more,
            induction noNulLeft after more (by omega),
            show maxLines - (currentLine + 1) = lines by omega]
          rfl
        · -- the last line, however many more there could be
          obtain ⟨first, rest, rfl⟩ := List.exists_cons_of_ne_nil empty
          have firstAt : buffer[lineStart]? = some first :=
            getElem?_of_drop reading 0
          have nonzero : first ≠ 0 := (noNul_cons noNul).1
          have line : cString (buffer.drop lineStart) = some (first :: rest) := by
            rw [reading, cString_append_nul noNul]
          rw [List.drop_of_length_le (by omega), List.take_of_length_le (by omega),
            numberedLines_nil]
          simp only [oledLoop, firstAt, Option.bind_eq_bind, Option.bind_some,
            line, if_pos (And.intro nonzero more), if_neg long]
          rfl
      · obtain ⟨first, rest, rfl⟩ := List.exists_cons_of_ne_nil empty
        have firstAt : buffer[lineStart]? = some first :=
          getElem?_of_drop reading 0
        simp [oledLoop, firstAt, numberedLines]

end Loop

/-- What the texts for the pages should be: nothing is lost and nothing repeated
that the panel has room for. -/
structure ShowsMessage (message : CString) (texts : List (Nat × List UInt8)) :
    Prop where
  fits : ∀ line ∈ texts, line.2.length ≤ maxCharsPerLine
  increasing : (texts.map Prod.fst).Pairwise (· < ·)
  onPanel : ∀ line ∈ texts, line.1 < panelPages
  whole : (texts.map Prod.snd).flatten =
    message.text.take (min (maxCharsPerLine * panelPages) message.text.length)

section Message

variable {Handle : Type} (handle : Handle) (message : CString)
  {buffer : List UInt8} {rounds : Nat}

/-- The lines that the loop displays, the first one on page 1. -/
def messageLines : List (Nat × List UInt8) :=
  numberedLines maxCharsPerLine maxLines 1 (message.text.take (sizeofBuffer - 1))

theorem oledPrintMessage_eq (size : buffer.length = sizeofBuffer)
    (enough : maxLines < rounds) :
    oledPrintMessage rounds (some handle) message buffer = some
      (.clearDisplay handle false :: (messageLines message).map fun line =>
        .displayText handle line.1 line.2 false) := by
  have copied : (strncpy buffer message.text (sizeofBuffer - 1)).length =
      sizeofBuffer := by
    rw [length_strncpy (by omega), size]
  have terminated :
      storeAt (strncpy buffer message.text (sizeofBuffer - 1)) (sizeofBuffer - 1) 0 =
        some (message.text.take (sizeofBuffer - 1) ++
          0 :: List.replicate (sizeofBuffer - 1 - message.text.length) 0) := by
    rw [storeAt, if_pos (by rw [copied]; decide),
      @strncpy_set_last _ _ (sizeofBuffer - 1) size, padded_eq_take_append]
  simp only [oledPrintMessage, Option.bind_eq_bind, terminated, Option.bind_some]
  rw [oledLoop_eq (message.noNul_take (sizeofBuffer - 1)) List.drop_zero
    (Nat.zero_le _) enough]
  rfl

theorem filterMap_pageText (lines : List (Nat × List UInt8)) :
    (DisplayCall.clearDisplay handle false :: lines.map fun line =>
      .displayText handle line.1 line.2 false).filterMap DisplayCall.pageText =
        lines := by
  rw [List.filterMap_cons_none rfl, List.filterMap_map]
  exact List.filterMap_some ..

/-- The eighth line goes to a page that the panel does not have. -/
theorem showsMessage_iff :
    ShowsMessage message (messageLines message) ↔
      message.text.length ≤ maxCharsPerLine * (panelPages - 1) := by
  have below : (∀ line ∈ messageLines message, line.1 < panelPages) ↔
      message.text.length ≤ maxCharsPerLine * (panelPages - 1) := by
    rw [messageLines, pages_numberedLines_below (by decide), List.length_take]
    simp only [maxLines, panelPages, maxCharsPerLine, sizeofBuffer]
    omega
  constructor
  · intro shows
    exact below.mp shows.onPanel
  · intro short
    refine ⟨fun _ => length_le_of_mem_numberedLines, pages_numberedLines_increase,
      below.mpr short, ?_⟩
    rw [messageLines, flatten_numberedLines, List.take_take]
    simp only [maxLines, panelPages, maxCharsPerLine, sizeofBuffer] at short ⊢
    rw [List.take_of_length_le (by omega), List.take_of_length_le (by omega)]

/-- Whatever the message, the panel shows its start on seven pages. -/
theorem drawn_messageLines :
    (((messageLines message).filter fun line => line.1 < panelPages).map
      Prod.snd).flatten =
        message.text.take (maxCharsPerLine * (panelPages - 1)) := by
  rw [messageLines, filter_numberedLines (by decide), flatten_numberedLines,
    List.take_take]
  rfl

/-- The loop ends on every message, and shows what it should exactly if seven
pages are enough. -/
theorem oledPrintMessage_shows_iff (size : buffer.length = sizeofBuffer)
    (enough : maxLines < rounds) :
    ∃ calls, oledPrintMessage rounds (some handle) message buffer = some calls ∧
      (ShowsMessage message (calls.filterMap DisplayCall.pageText) ↔
        message.text.length ≤ maxCharsPerLine * (panelPages - 1)) := by
  refine ⟨_, oledPrintMessage_eq handle message size enough, ?_⟩
  rw [filterMap_pageText]
  exact showsMessage_iff message

end Message

/-- A message of three lines. -/
def threeLines : CString :=
  ⟨asciiBytes "Waiting for the master to answer the request", by decide⟩

theorem oledPrintMessage_shows_iff_short :
    ∃ calls,
      oledPrintMessage 9 (some ()) threeLines (List.replicate sizeofBuffer 0xFF) =
        some calls ∧
      (ShowsMessage threeLines (calls.filterMap DisplayCall.pageText) ↔
        threeLines.text.length ≤ maxCharsPerLine * (panelPages - 1)) :=
  oledPrintMessage_shows_iff () threeLines (List.length_replicate ..) (by decide)

def longMessage : CString where
  text := List.replicate 113 0x41
  noNul := by
    rw [List.mem_replicate]
    rintro ⟨_, equality⟩
    exact absurd equality (by decide)

theorem oledPrintMessage_shows_fails :
    ¬ ∃ calls, oledPrintMessage 9 (some ()) longMessage
        (List.replicate sizeofBuffer 0) = some calls ∧
      ShowsMessage longMessage (calls.filterMap DisplayCall.pageText) := by
  rintro ⟨calls, shown, shows⟩
  rw [oledPrintMessage_eq () longMessage (List.length_replicate ..) (by decide)]
    at shown
  obtain rfl := Option.some.inj shown
  rw [filterMap_pageText, showsMessage_iff, longMessage, List.length_replicate]
    at shows
  exact absurd shows (by decide)

end Lora32Mqtt
