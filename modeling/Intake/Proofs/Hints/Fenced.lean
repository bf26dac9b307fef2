import Intake.Proofs.Hints.Readable
import Intake.Proofs.Text.Lines

/-!
# Fenced replies

A code fence around a reply is taken away whole: its opening line, and what follows from
the last closing line on.

There are four groups.

* Last fences.  `beforeLastFence_of_forall` and `beforeLastFence_append_cons` find the last
  closing line, or that there is none.
* Bodies.  `body` is what stands in a fence, and `body_append_blanks` says that blanks at
  the end of the text do not matter to it.
* Enclosures.  `Encloses` lists the ways to put a text into a fence;
  `unfence_of_encloses` takes the text out.
* Replies.  `readReply_of_encloses` is the result.
-/

namespace Intake.Text

variable {s t reply : List Char} {ls before after : List (List Char)}

/-! ## Last fences -/

theorem beforeLastFence_of_forall (h : ∀ l ∈ ls, isFence l = false) : beforeLastFence ls = ls := by
  have hnone : ls.reverse.dropWhile (! isFence ·) = [] := by
    rw [List.dropWhile_eq_nil_iff]
    intro l hl
    rw [h l (List.mem_reverse.1 hl)]
    rfl
  rw [beforeLastFence, hnone]

theorem beforeLastFence_append_cons {l : List Char} (hl : isFence l = true)
    (h : ∀ l ∈ after, isFence l = false) : beforeLastFence (before ++ l :: after) = before := by
  have hskip : ∀ l ∈ after.reverse, (! isFence l) = true := by
    intro l hl
    rw [h l (List.mem_reverse.1 hl)]
    rfl
  have hlast : (before ++ l :: after).reverse.dropWhile (! isFence ·) = l :: before.reverse := by
    rw [List.reverse_append, List.reverse_cons, List.append_assoc,
      List.dropWhile_append_of_pos hskip]
    exact List.dropWhile_cons_of_neg (by simp [hl])
  rw [beforeLastFence, hlast]
  exact List.reverse_reverse before

/-- A line behind others that is no fence plays a part only if there is no fence. -/
theorem beforeLastFence_concat {l : List Char} (hl : isFence l = false) :
    beforeLastFence (ls ++ [l]) =
      if ∀ l ∈ ls, isFence l = false then ls ++ [l] else beforeLastFence ls := by
  have hskip : (ls ++ [l]).reverse.dropWhile (! isFence ·) =
      ls.reverse.dropWhile (! isFence ·) := by
    rw [List.reverse_append, List.reverse_singleton, List.singleton_append]
    exact List.dropWhile_cons_of_pos (by simp [hl])
  have hnone : ls.reverse.dropWhile (! isFence ·) = [] ↔ ∀ l ∈ ls, isFence l = false := by
    simp [List.dropWhile_eq_nil_iff]
  rw [beforeLastFence, hskip]
  split
  · rename_i hnil
    rw [if_pos (hnone.1 hnil)]
  · rename_i l' before hcons
    have hsome : ¬ ∀ l ∈ ls, isFence l = false := fun h => by
      rw [hnone.2 h] at hcons
      cases hcons
    rw [if_neg hsome, beforeLastFence, hcons]

/-! ## Bodies -/

/-- What stands in a fence: the lines behind the first one and before the last fence. -/
def body (t : List Char) : List Char := trim (joinWith ['\n'] (beforeLastFence (lines t).tail))

/-- Blanks around a text are trimmed off with it. -/
theorem trim_around {lead trail : List Char} (hlead : ∀ c ∈ lead, isBlank c = true)
    (htrail : ∀ c ∈ trail, isBlank c = true) (s : List Char) :
    trim (lead ++ s ++ trail) = trim s := by
  obtain ⟨⟨front, back, hs, hfront, hback⟩, hfirst, hlast⟩ := isStripped_stripWhere isBlank s
  refine IsStripped.eq ⟨⟨lead ++ front, back ++ trail, ?_, ?_, ?_⟩, hfirst, hlast⟩
  · nth_rewrite 1 [hs]
    simp only [List.append_assoc]
    rfl
  · exact List.forall_mem_append.2 ⟨hlead, hfront⟩
  · exact List.forall_mem_append.2 ⟨hback, htrail⟩

theorem trim_append_blank {c : Char} (hc : isBlank c = true) (s : List Char) :
    trim (s ++ [c]) = trim s :=
  trim_around (List.forall_mem_nil _) (List.forall_mem_singleton.2 hc) s

theorem isFence_append_blank {c : Char} (hc : isBlank c = true) (l : List Char) :
    isFence (l ++ [c]) = isFence l := by
  rw [isFence, trim_append_blank hc, isFence]

theorem joinWith_concat_append (sep : List Char) (ls : List (List Char)) (l w : List Char) :
    joinWith sep (ls ++ [l ++ w]) = joinWith sep (ls ++ [l]) ++ w := by
  by_cases hls : ls = []
  · rw [hls, List.nil_append, List.nil_append, joinWith_singleton, joinWith_singleton]
  · rw [joinWith_append _ hls (List.cons_ne_nil _ _), joinWith_append _ hls (List.cons_ne_nil _ _),
      joinWith_singleton, joinWith_singleton]
    simp only [List.append_assoc]

/-- A character that is no newline belongs to the last line. -/
theorem lines_concat {l : List Char} {c : Char} (hc : c ≠ '\n') (h : lines t = ls ++ [l]) :
    lines (t ++ [c]) = ls ++ [l ++ [c]] := by
  have hnewline : ∀ l' ∈ ls ++ [l], '\n' ∉ l' := fun l' hl' =>
    newline_notMem_of_mem_lines (h ▸ hl')
  obtain ⟨hbefore, hlast⟩ := List.forall_mem_append.1 hnewline
  have hl := List.forall_mem_singleton.1 hlast
  rw [← joinWith_lines t, h, ← joinWith_concat_append,
    lines_joinWith (List.append_ne_nil_of_right_ne_nil _ (List.cons_ne_nil _ _))]
  refine List.forall_mem_append.2 ⟨hbefore, List.forall_mem_singleton.2 ?_⟩
  simpa [hl] using Ne.symm hc

/-- A blank at the end of the last line is trimmed off, or the line is not kept at all. -/
theorem trim_beforeLastFence_concat_append {c : Char} (hc : isBlank c = true)
    (ls : List (List Char)) (l : List Char) :
    trim (joinWith ['\n'] (beforeLastFence (ls ++ [l ++ [c]]))) =
      trim (joinWith ['\n'] (beforeLastFence (ls ++ [l]))) := by
  have hsame := isFence_append_blank hc l
  cases hl : isFence l with
  | true =>
    rw [hl] at hsame
    rw [beforeLastFence_append_cons hsame (List.forall_mem_nil _),
      beforeLastFence_append_cons hl (List.forall_mem_nil _)]
  | false =>
    rw [hl] at hsame
    rw [beforeLastFence_concat hsame, beforeLastFence_concat hl]
    split
    · rw [joinWith_concat_append, trim_append_blank hc]
    · rfl

/-- An empty line at the end is trimmed off, or it is not kept at all. -/
theorem trim_beforeLastFence_concat_nil (ls : List (List Char)) :
    trim (joinWith ['\n'] (beforeLastFence (ls ++ [[]]))) =
      trim (joinWith ['\n'] (beforeLastFence ls)) := by
  rw [beforeLastFence_concat (by decide)]
  split
  · rename_i hnone
    rw [beforeLastFence_of_forall hnone]
    by_cases hls : ls = []
    · rw [hls]
      rfl
    · rw [joinWith_append _ hls (List.cons_ne_nil _ _), joinWith_singleton, List.append_nil,
        trim_append_blank (by decide)]
  · rfl

theorem body_append_blank {c : Char} (hc : isBlank c = true) (t : List Char) :
    body (t ++ [c]) = body t := by
  by_cases hnewline : c = '\n'
  · rw [body, hnewline, lines_append_newline, lines_nil,
      List.tail_append_of_ne_nil (lines_ne_nil t), trim_beforeLastFence_concat_nil, body]
  · obtain ⟨ls, l, hlines⟩ := (List.eq_nil_or_concat' (lines t)).resolve_left (lines_ne_nil t)
    rw [body, lines_concat hnewline hlines, body, hlines]
    cases ls with
    | nil => rfl
    | cons first ls => exact trim_beforeLastFence_concat_append hc ls l

theorem body_append_blanks {b : List Char} (hb : ∀ c ∈ b, isBlank c = true) (t : List Char) :
    body (t ++ b) = body t := by
  induction b generalizing t with
  | nil => rw [List.append_nil]
  | cons c b ih =>
    obtain ⟨hc, hrest⟩ := List.forall_mem_cons.1 hb
    rw [List.append_cons, ih hrest, body_append_blank hc]

/-! ## Enclosures -/

/-- The ways to put a text into a fence.  Some words may stand behind the opening fence.  The
closing fence may be missing, and other lines may follow it, if none of these lines is a
fence itself. -/
inductive Encloses (s : List Char) : List Char → Prop where
  | unclosed {info : List Char} (hinfo : '\n' ∉ info) (h : ∀ l ∈ lines s, isFence l = false) :
      Encloses s (fence ++ info ++ '\n' :: s)
  | closed {info closing : List Char} (hinfo : '\n' ∉ info) (hline : '\n' ∉ closing)
      (hclosing : isFence closing = true) :
      Encloses s (fence ++ info ++ '\n' :: (s ++ '\n' :: closing))
  | followed {info closing trailing : List Char} (hinfo : '\n' ∉ info) (hline : '\n' ∉ closing)
      (hclosing : isFence closing = true) (h : ∀ l ∈ lines trailing, isFence l = false) :
      Encloses s (fence ++ info ++ '\n' :: (s ++ '\n' :: (closing ++ '\n' :: trailing)))

/-- The first line of an enclosure is the opening one. -/
theorem lines_fence_append {info : List Char} (hinfo : '\n' ∉ info) (t : List Char) :
    lines (fence ++ info ++ '\n' :: t) = (fence ++ info) :: lines t := by
  have hopening : '\n' ∉ fence ++ info := by
    rw [List.mem_append, not_or]
    exact ⟨by decide, hinfo⟩
  rw [lines_append_newline, lines_of_notMem hopening, List.singleton_append]

/-- Behind the opening line a text stands in a fence whole, whatever lines it has itself. -/
theorem body_of_encloses (h : Encloses s reply) : body reply = trim s := by
  cases h with
  | unclosed hinfo h =>
    rw [body, lines_fence_append hinfo, List.tail_cons, beforeLastFence_of_forall h, joinWith_lines]
  | closed hinfo hline hclosing =>
    rw [body, lines_fence_append hinfo, List.tail_cons, lines_append_newline,
      lines_of_notMem hline, beforeLastFence_append_cons hclosing (List.forall_mem_nil _),
      joinWith_lines]
  | followed hinfo hline hclosing h =>
    rw [body, lines_fence_append hinfo, List.tail_cons, lines_append_newline,
      lines_append_newline, lines_of_notMem hline, List.singleton_append,
      beforeLastFence_append_cons hclosing h, joinWith_lines]

theorem fence_prefix_of_encloses (h : Encloses s reply) : fence <+: reply := by
  cases h with
  | unclosed => exact (List.prefix_append _ _).trans (List.prefix_append _ _)
  | closed => exact (List.prefix_append _ _).trans (List.prefix_append _ _)
  | followed => exact (List.prefix_append _ _).trans (List.prefix_append _ _)

/-- Trimming a text that begins with a fence takes blanks from its end only. -/
theorem exists_trim_of_fence_prefix (h : fence <+: reply) :
    ∃ b, reply = trim reply ++ b ∧ (∀ c ∈ b, isBlank c = true) ∧ fence <+: trim reply := by
  obtain ⟨rest, rfl⟩ := h
  have hsplit : rest.rdropWhile isBlank ++ rest.rtakeWhile isBlank = rest :=
    List.rdropWhile_append_rtakeWhile
  have hblank : ∀ c ∈ rest.rtakeWhile isBlank, isBlank c = true := fun c hc =>
    List.mem_rtakeWhile_imp hc
  have htrim : trim (fence ++ rest) = fence ++ rest.rdropWhile isBlank := by
    refine IsStripped.eq ⟨⟨[], rest.rtakeWhile isBlank, ?_, List.forall_mem_nil _, hblank⟩, ?_, ?_⟩
    · rw [List.nil_append, List.append_assoc, hsplit]
    · intro c hc
      obtain rfl := Option.some.inj hc
      decide
    · intro c hc
      rw [List.getLast?_append] at hc
      cases hlast : (rest.rdropWhile isBlank).getLast? with
      | none =>
        rw [hlast] at hc
        obtain rfl := Option.some.inj hc
        decide
      | some c' =>
        rw [hlast] at hc
        obtain rfl := Option.some.inj hc
        rw [List.rdropWhile, List.getLast?_reverse] at hlast
        exact head?_dropWhile isBlank _ _ hlast
  rw [htrim]
  exact ⟨_, by rw [List.append_assoc, hsplit], hblank, List.prefix_append _ _⟩

/-- The fence is taken away and the text trimmed. -/
theorem unfence_of_encloses {lead trail : List Char} (h : Encloses s reply)
    (hlead : ∀ c ∈ lead, isBlank c = true) (htrail : ∀ c ∈ trail, isBlank c = true) :
    unfence (lead ++ reply ++ trail) = trim s := by
  obtain ⟨b, hreply, hblank, hfence⟩ := exists_trim_of_fence_prefix (fence_prefix_of_encloses h)
  rw [unfence, trim_around hlead htrail, if_pos (List.isPrefixOf_iff_prefix.2 hfence), ← body,
    ← body_append_blanks hblank, ← hreply, body_of_encloses h]

/-- A text that does not begin with a fence is only trimmed. -/
theorem unfence_of_not_prefix (h : ¬ fence <+: trim s) : unfence s = trim s :=
  if_neg fun hfence => h (List.isPrefixOf_iff_prefix.1 hfence)

end Intake.Text

namespace Intake.Reply

open Text

/-! ## Replies -/

/-- Replies from which the same text is taken are read alike. -/
theorem read_congr {reply reply' : String} (h : unfence reply.toList = unfence reply'.toList) :
    read reply = read reply' := by
  simp only [read, decode, h]

/-- Two readings give the same hints, or they fail with faults of one kind and wording. -/
def SameOutcome (outcome outcome' : Except Fault Hints) : Prop :=
  (∃ hints, outcome = .ok hints ∧ outcome' = .ok hints) ∨
    ∃ e e', outcome = .error e ∧ outcome' = .error e' ∧ e.kindName = e'.kindName ∧
      e.message = e'.message

theorem sameOutcome_of_read_eq {reply reply' : String} (h : read reply = read reply')
    (here there : Site) :
    SameOutcome (Shell.readReply reply here).1 (Shell.readReply reply' there).1 := by
  rw [readReply_eq, readReply_eq, h]
  cases read reply' with
  | ok hints => exact Or.inl ⟨hints, rfl, rfl⟩
  | error failure =>
    cases failure with
    | malformed m =>
      exact Or.inr ⟨.reply m.message reply, .reply m.message reply', rfl, rfl, rfl, rfl⟩
    | overflow => exact Or.inr ⟨.overflow, .overflow, rfl, rfl, rfl, rfl⟩

/-- A fence around a text, with any blanks around it, is taken away whole, also where the text
has fence lines itself.  So a text that does not begin with a fence is read the same with a
fence around it and without. -/
theorem readReply_of_encloses {s reply lead trail : List Char} (h : Encloses s reply)
    (hlead : ∀ c ∈ lead, isBlank c = true) (htrail : ∀ c ∈ trail, isBlank c = true) :
    unfence (lead ++ reply ++ trail) = trim s ∧
      (¬ fence <+: trim s → ∀ here there : Site,
        SameOutcome (Shell.readReply (String.ofList (lead ++ reply ++ trail)) here).1
          (Shell.readReply (String.ofList s) there).1) := by
  have hunfence := unfence_of_encloses h hlead htrail
  refine ⟨hunfence, fun hplain here there => sameOutcome_of_read_eq (read_congr ?_) here there⟩
  rw [String.toList_ofList, String.toList_ofList, hunfence, unfence_of_not_prefix hplain]

/-- An object with a fence line in front of it. -/
def notedObject : List Char := "Note\n\x60\x60\x60\n\x7b\x7d".toList

/-- The object in a fence of its own, with a remark behind the closing line. -/
def remarkedObject : List Char :=
  fence ++ "json".toList ++ '\n' :: (notedObject ++ '\n' :: (" \x60\x60\x60 ".toList ++ '\n' ::
    "That is all.".toList))

theorem readReply_of_encloses_remarkedObject :
    Encloses notedObject remarkedObject ∧ ¬ fence <+: trim notedObject ∧
      unfence ("\n ".toList ++ remarkedObject ++ "\n".toList) = notedObject ∧
      SameOutcome
        (Shell.readReply (String.ofList ("\n ".toList ++ remarkedObject ++ "\n".toList)) {}).1
        (Shell.readReply (String.ofList notedObject) {}).1 := by
  have h : Encloses notedObject remarkedObject :=
    .followed (by decide) (by decide) (by decide) (by decide)
  have hplain : ¬ fence <+: trim notedObject := by decide
  have hlead : ∀ c ∈ "\n ".toList, isBlank c = true := List.all_eq_true.1 (by decide)
  have htrail : ∀ c ∈ "\n".toList, isBlank c = true := List.all_eq_true.1 (by decide)
  obtain ⟨hunfence, hsame⟩ := readReply_of_encloses h hlead htrail
  exact ⟨h, hplain, hunfence.trans (by decide), hsame hplain {} {}⟩

end Intake.Reply
