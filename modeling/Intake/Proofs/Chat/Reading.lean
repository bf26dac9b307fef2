import Mathlib.Data.List.TakeWhile
import Intake.Chat.Stream

/-!
# Reading streamed replies

The chunks of a streamed reply are its pieces of text, and behind them one
chunk that ends it.  However a stream is read and closed, it hands these chunks
out in order, each of them once, and has nothing more behind the end or behind
a closing.  A response that gives its reader up does not end the reply: the
read fails, and the end is still to come.

There are four groups.

* Parts.  `Part.texts` are the pieces of text in the parts of a response,
  `Chunk.whole` are the chunks of a response, and `StreamRead.course` is what
  its reads bring.
* Reads.  `ChatStream.Gives` says what a response still gives;
  `Gives.read_cons` and `Gives.read_nil` say what one read brings.
* Offers.  `ChatStream.Offers` says the same of a stream that may have ended,
  which is what reads and closings keep.
* Uses.  `ChatStream.uses` is any sequence of reads and closings.
  `ends_once` is the result.
-/

namespace Intake

/-! ## Parts -/

namespace Part

/-- The text of a part. -/
def text? : Part → Option String
  | .delta (some text) => if text.isEmpty then none else some text
  | _ => none

/-- The part neither breaks the response off nor holds it up for ever. -/
def Flows : Part → Prop
  | .fails _ => False
  | .silence => False
  | _ => True

/-- The pieces of text in the parts of a response. -/
def texts (parts : List Part) : List String := parts.filterMap text?

/-- The whole text of a response. -/
def joined (parts : List Part) : String := String.join (texts parts)

/-- A response that breaks off behind some parts, or comes to its end there. -/
def broken (body : List Part) : Option Fault → List Part
  | none => body
  | some e => body ++ [.fails e]

theorem broken_cons (part : Part) (rest : List Part) (fault : Option Fault) :
    broken (part :: rest) fault = part :: broken rest fault := by
  cases fault <;> rfl

theorem texts_cons_of_none {part : Part} (h : part.text? = none) (rest : List Part) :
    texts (part :: rest) = texts rest := List.filterMap_cons_none h

theorem isEmpty_of_mem_texts (parts : List Part) :
    ∀ text ∈ texts parts, text.isEmpty = false := by
  intro text htext
  obtain ⟨part, -, hpart⟩ := List.mem_filterMap.1 htext
  unfold text? at hpart
  split at hpart
  · split_ifs at hpart with hempty
    rw [← Option.some.inj hpart]
    exact Bool.eq_false_iff.2 hempty
  · cases hpart

theorem length_texts_le (parts : List Part) : (texts parts).length ≤ parts.length :=
  List.length_filterMap_le _ _

end Part

/-- The chunks of a response: one for each piece of text, and the end. -/
def Chunk.whole (texts : List String) (fault : Option Fault) : List Chunk :=
  texts.map (fun text => { text := text }) ++ [{ done := true, fault := fault }]

namespace StreamRead

/-- What the read behind the last piece of text brings. -/
def atEnd : Option Fault → StreamRead
  | none => .chunk .last
  | some e => if e.isAbandoned then .failed e else .chunk (.broken e)

/-- What the reads of a response bring: its pieces of text, and the end.  When
the reader was given up there, the end comes behind that. -/
def course (texts : List String) (fault : Option Fault) : List StreamRead :=
  texts.map (fun text => .chunk { text := text }) ++
    atEnd fault :: if ChatStream.isEnd (atEnd fault) then [] else [.chunk .last]

/-- The chunk that a read brings. -/
def chunk? : StreamRead → Option Chunk
  | .chunk c => some c
  | _ => none

variable {fault : Option Fault}

theorem atEnd_ne_exhausted (fault : Option Fault) : atEnd fault ≠ .exhausted := by
  cases fault with
  | none => exact StreamRead.noConfusion
  | some e =>
    rw [atEnd]
    split
    · exact StreamRead.noConfusion
    · exact StreamRead.noConfusion

/-- Unless the reader was given up, every read brings a chunk. -/
theorem course_eq_whole (h : ∀ e, fault = some e → e.isAbandoned = false) (texts : List String) :
    course texts fault = (Chunk.whole texts fault).map .chunk := by
  have hend : atEnd fault = .chunk { done := true, fault := fault } := by
    cases fault with
    | none => rfl
    | some e =>
      rw [atEnd, h e rfl]
      rfl
  rw [course, hend, Chunk.whole, List.map_append, List.map_map]
  rfl

end StreamRead

/-! ## Reads -/

namespace ChatStream

/-- A response still gives these pieces of text, and then its end. -/
def Gives (stream : ChatStream) (texts : List String) (fault : Option Fault) : Prop :=
  ∃ body, stream.supply = .response (Part.broken body fault) ∧ stream.finished = false ∧
    (∀ part ∈ body, part.Flows) ∧ Part.texts body = texts

/-- A response that flows still gives these pieces of text, and then its
end. -/
def Yields (stream : ChatStream) (texts : List String) : Prop := stream.Gives texts none

/-- A read of a response brings its first piece of text and leaves the others,
or it brings the end and leaves nothing. -/
def Brings (body : List Part) (fault : Option Fault) (read : StreamRead) (left : List Part) :
    Prop :=
  (Part.texts body = [] ∧ read = .atEnd fault ∧ left = []) ∨
    ∃ text rest, read = .chunk { text := text } ∧ left = Part.broken rest fault ∧
      text.isEmpty = false ∧ (∀ part ∈ rest, part.Flows) ∧ Part.texts body = text :: Part.texts rest

/-- Parts without text are passed over. -/
theorem Brings.cons {part : Part} {rest left : List Part} {fault : Option Fault}
    {read : StreamRead} (h : Brings rest fault read left) (hpart : part.text? = none) :
    Brings (part :: rest) fault read left := by
  rw [Brings, Part.texts_cons_of_none hpart]
  exact h

theorem brings_nextChunk {body : List Part} (h : ∀ part ∈ body, part.Flows)
    (fault : Option Fault) : Brings body fault (nextChunk (Part.broken body fault)).1
      (nextChunk (Part.broken body fault)).2.2 := by
  induction body with
  | nil =>
    cases fault with
    | none => exact Or.inl ⟨rfl, rfl, rfl⟩
    | some e =>
      show Brings [] (some e) (nextChunk [.fails e]).1 (nextChunk [.fails e]).2.2
      rw [nextChunk]
      cases habandoned : e.isAbandoned with
      | true => exact Or.inl ⟨rfl, (if_pos habandoned).symm, rfl⟩
      | false => exact Or.inl ⟨rfl, (if_neg (Bool.eq_false_iff.1 habandoned)).symm, rfl⟩
  | cons part rest ih =>
    have hflows : ∀ part ∈ rest, part.Flows := fun p hp => h p (List.mem_cons_of_mem _ hp)
    have hrest := ih hflows
    rw [Part.broken_cons]
    cases part with
    | delta text =>
      cases text with
      | none => exact hrest.cons rfl
      | some text =>
        rw [nextChunk]
        cases hempty : text.isEmpty with
        | true =>
          rw [if_pos rfl]
          exact hrest.cons (if_pos hempty)
        | false =>
          have htext : (Part.delta (some text)).text? = some text :=
            if_neg (by rw [hempty]; exact Bool.false_ne_true)
          rw [if_neg Bool.false_ne_true]
          exact Or.inr ⟨text, rest, rfl, rfl, hempty, hflows, List.filterMap_cons_some htext⟩
    | noChoice => exact hrest.cons rfl
    | noText => exact hrest.cons rfl
    | fails e => exact (h _ List.mem_cons_self).elim
    | silence => exact (h _ List.mem_cons_self).elim
    | pause seconds => exact hrest.cons rfl

theorem read_of_open {stream : ChatStream} {parts : List Part}
    (hsupply : stream.supply = .response parts) (hopen : stream.finished = false) :
    stream.read = ((nextChunk parts).1, (nextChunk parts).2.1,
      { stream with supply := .response (nextChunk parts).2.2,
                    finished := isEnd (nextChunk parts).1 }) := by
  rw [read, hsupply]
  exact if_neg (by rw [hopen]; exact Bool.false_ne_true)

variable {stream : ChatStream} {text : String} {rest texts : List String} {fault : Option Fault}

/-- The next piece of text arrives. -/
theorem Gives.read_cons (h : stream.Gives (text :: rest) fault) :
    stream.read.1 = .chunk { text := text } ∧ text.isEmpty = false ∧
      stream.read.2.2.Gives rest fault := by
  obtain ⟨body, hsupply, hopen, hflows, htexts⟩ := h
  rw [read_of_open hsupply hopen]
  rcases brings_nextChunk hflows fault with ⟨hnil, -⟩ | ⟨t, left, hread, hleft, hempty, hrest, heq⟩
  · exact absurd (htexts.symm.trans hnil) (List.cons_ne_nil _ _)
  · obtain ⟨rfl, rfl⟩ := List.cons.inj (htexts.symm.trans heq)
    refine ⟨hread, hempty, left, congrArg Supply.response hleft, ?_, hrest, rfl⟩
    show isEnd (nextChunk _).1 = false
    rw [hread]
    rfl

/-- Behind the last piece comes the end. -/
theorem Gives.read_nil (h : stream.Gives [] fault) :
    stream.read.1 = .atEnd fault ∧ stream.read.2.2.supply = .response [] ∧
      stream.read.2.2.finished = isEnd (.atEnd fault) := by
  obtain ⟨body, hsupply, hopen, hflows, htexts⟩ := h
  rw [read_of_open hsupply hopen]
  rcases brings_nextChunk hflows fault with
    ⟨-, hread, hleft⟩ | ⟨t, left, -, -, -, -, heq⟩
  · exact ⟨hread, congrArg Supply.response hleft, congrArg isEnd hread⟩
  · exact absurd (htexts.symm.trans heq).symm (List.cons_ne_nil _ _)

/-! ## Offers -/

/-- What the reads of a stream still bring.  A stream that has ended, or that
was closed, brings nothing. -/
inductive Offers (stream : ChatStream) : List StreamRead → Prop where
  | given {texts : List String} {fault : Option Fault} (h : stream.Gives texts fault) :
      Offers stream (StreamRead.course texts fault)
  | ended {parts : List Part} (hsupply : stream.supply = .response parts)
      (hfinished : stream.finished = true) : Offers stream []

variable {r : StreamRead} {rs : List StreamRead}

/-- A read brings the first of what is left, and behind the end there is
nothing. -/
theorem Offers.read_cons (h : stream.Offers (r :: rs)) :
    stream.read.1 = r ∧ stream.read.2.2.Offers rs ∧ r ≠ .exhausted ∧
      (isEnd r = true → rs = []) := by
  generalize hall : r :: rs = all at h
  cases h with
  | @given texts fault hgives =>
    cases texts with
    | nil =>
      obtain ⟨rfl, rfl⟩ := List.cons.inj hall
      obtain ⟨hread, hsupply, hfinished⟩ := hgives.read_nil
      refine ⟨hread, ?_, StreamRead.atEnd_ne_exhausted fault, fun hend => if_pos hend⟩
      cases hend : isEnd (.atEnd fault) with
      | true => exact .ended hsupply (hfinished.trans hend)
      | false =>
        have hempty : stream.read.2.2.Gives [] none :=
          ⟨[], hsupply, hfinished.trans hend, fun _ h => absurd h List.not_mem_nil, rfl⟩
        exact .given hempty
    | cons text rest =>
      obtain ⟨rfl, rfl⟩ := List.cons.inj hall
      obtain ⟨hread, -, hrest⟩ := hgives.read_cons
      exact ⟨hread, .given hrest, StreamRead.noConfusion,
        fun hend => absurd hend Bool.false_ne_true⟩
  | ended => cases hall

/-- A read of a stream that has ended leaves it as it is. -/
theorem Offers.read_nil (h : stream.Offers []) :
    stream.read.1 = .exhausted ∧ stream.read.2.2.Offers [] := by
  generalize hall : [] = all at h
  cases h with
  | given => exact absurd (List.append_eq_nil_iff.1 hall.symm).2 (List.cons_ne_nil _ _)
  | ended hsupply hfinished =>
    rw [read_of_finished hsupply hfinished]
    exact ⟨rfl, .ended hsupply hfinished⟩

theorem Offers.close (h : stream.Offers rs) : stream.close.Offers [] := by
  cases h with
  | given hgives =>
    obtain ⟨body, hsupply, -⟩ := hgives
    have hclosed : stream.close.supply = _ := hsupply
    exact .ended hclosed rfl
  | ended hsupply =>
    have hclosed : stream.close.supply = _ := hsupply
    exact .ended hclosed rfl

/-! ## Uses -/

/-- What a reader does with a stream. -/
inductive Use where
  | read
  | close
  deriving DecidableEq

/-- What one use of a stream gives. -/
inductive Given where
  | read (r : StreamRead)
  | close (report : Except Fault Unit)

namespace Given

/-- The use that gave it. -/
def use : Given → Use
  | read _ => .read
  | close _ => .close

/-- What a read brought, unless it found the stream ended. -/
def arrival? : Given → Option StreamRead
  | read .exhausted => none
  | read r => some r
  | close _ => none

/-- The chunk that was handed out. -/
def chunk? (g : Given) : Option Chunk := g.arrival?.bind StreamRead.chunk?

/-- The stream has ended by now: this is the end, or the stream was closed. -/
def Ends : Given → Prop
  | read r => isEnd r = true
  | close _ => True

/-- A read that finds the stream ended, or no read. -/
def IsExhausted (g : Given) : Prop := ∀ r, g = read r → r = .exhausted

theorem arrival?_of_ne {r : StreamRead} (h : r ≠ .exhausted) : (read r).arrival? = some r := by
  cases r with
  | exhausted => exact absurd rfl h
  | _ => rfl

end Given

/-- Uses a stream once. -/
def apply (stream : ChatStream) : Use → Given × ChatStream
  | .read => (.read stream.read.1, stream.read.2.2)
  | .close => (.close stream.closeReport, stream.close)

/-- Uses a stream, one use after the other. -/
def uses (stream : ChatStream) : List Use → List Given × ChatStream
  | [] => ([], stream)
  | u :: us =>
    let (given, left) := stream.apply u
    let (later, left) := left.uses us
    (given :: later, left)

/-- The number of reads before the stream is closed. -/
def readsBefore (us : List Use) : Nat := (us.takeWhile (· == .read)).length

theorem uses_cons (stream : ChatStream) (u : Use) (us : List Use) :
    stream.uses (u :: us) = ((stream.apply u).1 :: ((stream.apply u).2.uses us).1,
      ((stream.apply u).2.uses us).2) := rfl

/-- A stream that has ended hands out nothing, whatever is done with it. -/
theorem isExhausted_of_ended (us : List Use) :
    ∀ {stream : ChatStream}, stream.Offers [] → ∀ g ∈ (stream.uses us).1, g.IsExhausted := by
  induction us with
  | nil => exact fun _ g hg => absurd hg List.not_mem_nil
  | cons u us ih =>
    intro stream h g hg
    rw [uses_cons] at hg
    cases u with
    | read =>
      obtain ⟨hread, hleft⟩ := h.read_nil
      rcases List.mem_cons.1 hg with rfl | hg
      · intro r hr
        exact (Given.read.inj hr).symm.trans hread
      · exact ih hleft g hg
    | close =>
      rcases List.mem_cons.1 hg with rfl | hg
      · exact fun r hr => Given.noConfusion hr
      · exact ih h.close g hg

/-- What the reads bring comes in order, each once, until the stream is
closed. -/
theorem arrivals_uses (us : List Use) : ∀ {stream : ChatStream} {rs : List StreamRead},
    stream.Offers rs →
      (stream.uses us).1.filterMap Given.arrival? = rs.take (readsBefore us) := by
  induction us with
  | nil => exact fun _ => List.take_zero.symm
  | cons u us ih =>
    intro stream rs h
    rw [uses_cons]
    cases u with
    | close => exact (ih h.close).trans (List.take_nil.trans List.take_zero.symm)
    | read =>
      have hcount : readsBefore (.read :: us) = readsBefore us + 1 := rfl
      rw [hcount]
      cases rs with
      | nil =>
        obtain ⟨hread, hleft⟩ := h.read_nil
        have hnone : Given.arrival? (.read stream.read.1) = none := by rw [hread]; rfl
        exact (List.filterMap_cons_none hnone).trans ((ih hleft).trans (by simp))
      | cons r rs =>
        obtain ⟨hread, hleft, hne, -⟩ := h.read_cons
        have hsome : Given.arrival? (.read stream.read.1) = some r := by
          rw [hread]
          exact Given.arrival?_of_ne hne
        exact (List.filterMap_cons_some hsome).trans (congrArg (r :: ·) (ih hleft))

/-- Behind the end and behind a closing, every read finds the stream ended. -/
theorem pairwise_uses (us : List Use) : ∀ {stream : ChatStream} {rs : List StreamRead},
    stream.Offers rs → (stream.uses us).1.Pairwise fun g later => g.Ends → later.IsExhausted := by
  induction us with
  | nil => exact fun _ => .nil
  | cons u us ih =>
    intro stream rs h
    rw [uses_cons]
    cases u with
    | close =>
      exact List.pairwise_cons.2
        ⟨fun g hg _ => isExhausted_of_ended us h.close g hg, ih h.close⟩
    | read =>
      cases rs with
      | nil =>
        obtain ⟨-, hleft⟩ := h.read_nil
        exact List.pairwise_cons.2 ⟨fun g hg _ => isExhausted_of_ended us hleft g hg, ih hleft⟩
      | cons r rs =>
        obtain ⟨hread, hleft, -, hlast⟩ := h.read_cons
        refine List.pairwise_cons.2 ⟨fun g hg hends => ?_, ih hleft⟩
        have hend : isEnd stream.read.1 = true := hends
        rw [hread] at hend
        rw [hlast hend] at hleft
        exact isExhausted_of_ended us hleft g hg

/-- A use is answered in its kind. -/
theorem kinds_uses (us : List Use) (stream : ChatStream) :
    (stream.uses us).1.map Given.use = us := by
  induction us generalizing stream with
  | nil => rfl
  | cons u us ih =>
    rw [uses_cons, List.map_cons, ih]
    cases u <;> rfl

/-- Where the reads bring chunks, they hand these out, and none fails or
hangs. -/
theorem chunks_of_arrivals {given : List Given} {cs : List Chunk} {n : Nat}
    (h : given.filterMap Given.arrival? = (cs.map .chunk).take n) :
    given.filterMap Given.chunk? = cs.take n ∧
      ∀ r, .read r ∈ given → r = .exhausted ∨ ∃ c, r = .chunk c := by
  have hchunks : StreamRead.chunk? ∘ StreamRead.chunk = some := rfl
  constructor
  · calc given.filterMap Given.chunk?
        = (given.filterMap Given.arrival?).filterMap StreamRead.chunk? :=
          List.filterMap_filterMap.symm
      _ = cs.take n := by
          rw [h, ← List.map_take, List.filterMap_map, hchunks, List.filterMap_some]
  · intro r hr
    by_cases hended : r = .exhausted
    · exact Or.inl hended
    · have hmem : r ∈ (cs.map StreamRead.chunk).take n :=
        h ▸ List.mem_filterMap.2 ⟨_, hr, Given.arrival?_of_ne hended⟩
      obtain ⟨c, -, hc⟩ := List.mem_map.1 (List.mem_of_mem_take hmem)
      exact Or.inr ⟨c, hc.symm⟩

/-- A read neither closes the response nor changes how it is closed. -/
theorem closing_read (stream : ChatStream) :
    stream.read.2.2.closings = stream.closings ∧ stream.read.2.2.closable = stream.closable ∧
      stream.read.2.2.closeReport = stream.closeReport := by
  rw [read]
  split
  · split <;> exact ⟨rfl, rfl, rfl⟩
  · exact ⟨rfl, rfl, rfl⟩
  · exact ⟨rfl, rfl, rfl⟩
  · exact ⟨rfl, rfl, rfl⟩

/-- Each closing closes the response once, if it can be closed, and reports the
same. -/
theorem closings_uses (us : List Use) (stream : ChatStream) :
    (stream.uses us).2.closings =
        stream.closings + (if stream.closable then us.count .close else 0) ∧
      ∀ report, .close report ∈ (stream.uses us).1 → report = stream.closeReport := by
  induction us generalizing stream with
  | nil => exact ⟨by cases stream.closable <;> rfl, fun _ hr => absurd hr List.not_mem_nil⟩
  | cons u us ih =>
    obtain ⟨hcount, hreports⟩ := ih (stream.apply u).2
    rw [uses_cons]
    cases u with
    | read =>
      obtain ⟨hclosings, hclosable, hreport⟩ := closing_read stream
      refine ⟨?_, fun report hr => ?_⟩
      · rw [hcount, List.count_cons_of_ne (by decide)]
        show stream.read.2.2.closings + (if stream.read.2.2.closable then _ else _) = _
        rw [hclosings, hclosable]
      · rcases List.mem_cons.1 hr with hfirst | hr
        · exact Given.noConfusion hfirst
        · exact (hreports report hr).trans hreport
    | close =>
      refine ⟨?_, fun report hr => ?_⟩
      · rw [hcount, List.count_cons_self]
        show stream.close.closings + (if stream.closable then _ else _) = _
        rw [ChatStream.close]
        cases stream.closable with
        | true => simp only [if_true]; omega
        | false => rfl
      · rcases List.mem_cons.1 hr with hfirst | hr
        · exact Given.close.inj hfirst
        · exact hreports report hr

/-- A stream over a response ends once and stays ended.  Whatever is done with
it, the reads hand out the pieces of text that are not empty, in order, and
behind them one chunk that ends the reply, with the fault if reading the
response failed; a closing cuts this off.  A read behind the end or behind a
closing finds the stream ended, and no read fails or hangs.  Each closing closes
the response once if it can be closed, whether or not that fails.

A response that gives its reader up has not failed: the one read that waits for
it fails, and the chunk that ends the reply is what the next read brings. -/
theorem ends_once {stream : ChatStream} {body : List Part} {fault : Option Fault}
    (hsupply : stream.supply = .response (Part.broken body fault))
    (hopen : stream.finished = false) (hflows : ∀ part ∈ body, part.Flows) (us : List Use) :
    (stream.uses us).1.map Given.use = us ∧
    (stream.uses us).1.filterMap Given.arrival? =
      (StreamRead.course (Part.texts body) fault).take (readsBefore us) ∧
    ((∀ e, fault = some e → e.isAbandoned = false) →
      (stream.uses us).1.filterMap Given.chunk? =
        (Chunk.whole (Part.texts body) fault).take (readsBefore us) ∧
      ∀ r, .read r ∈ (stream.uses us).1 → r = .exhausted ∨ ∃ c, r = .chunk c) ∧
    ((stream.uses us).1.Pairwise fun g later => g.Ends → later.IsExhausted) ∧
    (stream.uses us).2.closings =
      stream.closings + (if stream.closable then us.count .close else 0) ∧
    ∀ report, .close report ∈ (stream.uses us).1 → report = stream.closeReport := by
  have hoffers : stream.Offers (StreamRead.course (Part.texts body) fault) :=
    .given ⟨body, hsupply, hopen, hflows, rfl⟩
  have harrivals := arrivals_uses us hoffers
  obtain ⟨hclosings, hreports⟩ := closings_uses us stream
  refine ⟨kinds_uses us stream, harrivals, fun hheard => chunks_of_arrivals ?_,
    pairwise_uses us hoffers, hclosings, hreports⟩
  rw [harrivals, StreamRead.course_eq_whole hheard]

/-- A response with two pieces of text among parts without any, which breaks
off behind them.  Closing it fails. -/
def interrupted (fault : Fault) : ChatStream where
  supply := .response (Part.broken [.noChoice, .delta (some "a"), .delta none, .noText,
    .delta (some ""), .delta (some "b")] (some fault))
  closeFault := some (.runtime "gone")

theorem ends_once_interrupted :
    ((interrupted (.runtime "reset")).uses [.read, .read, .read, .read, .close, .close]).1.filterMap
        Given.chunk? =
      [{ text := "a" }, { text := "b" }, { done := true, fault := some (.runtime "reset") }] ∧
    ((interrupted (.runtime "reset")).uses
      [.read, .read, .read, .read, .close, .close]).2.closings = 2 ∧
    ((interrupted .abandoned).uses [.read, .read, .read, .read, .read]).1.filterMap
        Given.arrival? =
      [.chunk { text := "a" }, .chunk { text := "b" }, .failed .abandoned, .chunk .last] ∧
    ((interrupted .abandoned).uses [.read, .close, .read]).1.filterMap Given.arrival? =
      [.chunk { text := "a" }] ∧
    ∀ report, .close report ∈ ((interrupted .abandoned).uses [.read, .close, .read]).1 →
      report = .error (.runtime "gone") := by
  have hflows : ∀ part ∈ [Part.noChoice, .delta (some "a"), .delta none, .noText,
      .delta (some ""), .delta (some "b")], part.Flows := by simp [Part.Flows]
  have hsupply : ∀ fault, (interrupted fault).supply = .response (Part.broken [.noChoice,
      .delta (some "a"), .delta none, .noText, .delta (some ""), .delta (some "b")]
      (some fault)) := fun _ => rfl
  have hreset : ∀ e, some (Fault.runtime "reset") = some e → e.isAbandoned = false := by
    rintro e ⟨⟩
    rfl
  have hwhole := ends_once (hsupply (.runtime "reset")) rfl hflows
    [.read, .read, .read, .read, .close, .close]
  have hlater := ends_once (hsupply .abandoned) rfl hflows [.read, .read, .read, .read, .read]
  have hcut := ends_once (hsupply .abandoned) rfl hflows [.read, .close, .read]
  exact ⟨(hwhole.2.2.1 hreset).1.trans rfl, hwhole.2.2.2.2.1, hlater.2.1.trans rfl,
    hcut.2.1.trans rfl, hcut.2.2.2.2.2⟩

end ChatStream
end Intake
