import Mathlib.Data.List.Infix

/-!
# Reading XML as events

A document is a list of tags, texts and CDATA sections. `write` puts them one after
the other, `read` goes through the characters; a CDATA section ends at the first
`]]>`. A document that is `Plain` is read as what was written, exactly if no CDATA
section holds `]]>` itself (`read_write_iff`).

What stands between `<` and `>` is taken for a name, so attributes and comments are
not told apart from it.
-/

namespace Xml

inductive Event where
  | start (name : List Char)
  | stop (name : List Char)
  | text (t : List Char)
  | cdata (t : List Char)
  deriving DecidableEq

/-- What ends a CDATA section. -/
def closing : List Char := [']', ']', '>']

/-- What begins one, without the `<`. -/
def opening : List Char := ['!', '[', 'C', 'D', 'A', 'T', 'A', '[']

def Event.write : Event → List Char
  | start name => '<' :: name ++ ['>']
  | stop name => '<' :: '/' :: name ++ ['>']
  | text t => t
  | cdata t => '<' :: opening ++ t ++ closing

def write (events : List Event) : List Char := events.flatMap Event.write

/-! ### The reader -/

/-- Where the reader is, with what it has read there. -/
inductive Mode where
  | text (read : List Char)
  | tag (read : List Char)
  | cdata (read : List Char)
  deriving DecidableEq

structure Reader where
  mode : Mode := .text []
  events : List Event := []
  deriving DecidableEq

/-- No event for a text without characters. -/
def textEvent (t : List Char) : List Event := if t = [] then [] else [.text t]

def tagEvent : List Char → Event
  | '/' :: name => .stop name
  | name => .start name

def Reader.feed (r : Reader) (c : Char) : Reader :=
  match r.mode with
  | .text t =>
    if c = '<' then ⟨.tag [], r.events ++ textEvent t⟩ else ⟨.text (t ++ [c]), r.events⟩
  | .tag t =>
    if c = '>' then ⟨.text [], r.events ++ [tagEvent t]⟩
    else if t ++ [c] = opening then ⟨.cdata [], r.events⟩
    else ⟨.tag (t ++ [c]), r.events⟩
  | .cdata t =>
    if closing <:+ t ++ [c] then
      ⟨.text [], r.events ++ [.cdata ((t ++ [c]).take (t.length - 2))]⟩
    else ⟨.cdata (t ++ [c]), r.events⟩

def Reader.feedAll (r : Reader) (doc : List Char) : Reader := doc.foldl Reader.feed r

/-- The events of a document that does not end within a tag or a CDATA section. -/
def read (doc : List Char) : Option (List Event) :=
  match Reader.feedAll {} doc with
  | ⟨.text t, events⟩ => some (events ++ textEvent t)
  | _ => none

variable {r : Reader} {doc name t : List Char} {events done : List Event} {e : Event}

theorem feedAll_append (r : Reader) (doc more : List Char) :
    r.feedAll (doc ++ more) = (r.feedAll doc).feedAll more :=
  List.foldl_append

theorem feedAll_cons {c : Char} : r.feedAll (c :: doc) = (r.feed c).feedAll doc := rfl

/-- Events are only added. -/
theorem events_feedAll (r : Reader) (doc : List Char) : r.events <+: (r.feedAll doc).events := by
  induction doc generalizing r with
  | nil => exact List.prefix_refl _
  | cons c doc ih =>
    refine List.IsPrefix.trans ?_ (ih (r.feed c))
    obtain ⟨mode, events⟩ := r
    cases mode with
    | text t =>
      simp only [Reader.feed]
      split
      · exact List.prefix_append _ _
      · exact List.prefix_refl _
    | tag t =>
      simp only [Reader.feed]
      split
      · exact List.prefix_append _ _
      · split <;> exact List.prefix_refl _
    | cdata t =>
      simp only [Reader.feed]
      split
      · exact List.prefix_append _ _
      · exact List.prefix_refl _

/-- Characters of a text are collected. -/
theorem feedAll_text (h : '<' ∉ doc) :
    Reader.feedAll ⟨.text t, events⟩ doc = ⟨.text (t ++ doc), events⟩ := by
  induction doc generalizing t with
  | nil => simp [Reader.feedAll]
  | cons c doc ih =>
    simp only [List.mem_cons, not_or] at h
    rw [feedAll_cons, Reader.feed]
    simp only [if_neg (Ne.symm h.1)]
    rw [ih h.2, List.append_assoc, List.singleton_append]

/-- So are those of a tag that does not begin a CDATA section. -/
theorem feedAll_tag (h : '>' ∉ doc) (hhead : (t ++ doc).head? ≠ some '!') :
    Reader.feedAll ⟨.tag t, events⟩ (doc ++ ['>']) =
      ⟨.text [], events ++ [tagEvent (t ++ doc)]⟩ := by
  induction doc generalizing t with
  | nil => simp [Reader.feedAll, Reader.feed]
  | cons c doc ih =>
    simp only [List.mem_cons, not_or] at h
    have hopening : t ++ [c] ≠ opening := by
      intro heq
      apply hhead
      have hsplit : t ++ c :: doc = opening ++ doc := by rw [← heq]; simp
      rw [hsplit]
      rfl
    rw [List.cons_append, feedAll_cons, Reader.feed]
    simp only [if_neg (Ne.symm h.1), if_neg hopening]
    have happ : t ++ [c] ++ doc = t ++ c :: doc := by simp
    rw [ih h.2 (happ ▸ hhead), happ]

/-- A CDATA section goes on, or ends at the first `]]>`. -/
theorem feedAll_cdata (h : ¬ closing <:+: t) (doc : List Char) :
    (¬ closing <:+: t ++ doc ∧
      Reader.feedAll ⟨.cdata t, events⟩ doc = ⟨.cdata (t ++ doc), events⟩) ∨
    ∃ content rest, t ++ doc = content ++ closing ++ rest ∧
      Reader.feedAll ⟨.cdata t, events⟩ doc =
        Reader.feedAll ⟨.text [], events ++ [.cdata content]⟩ rest := by
  induction doc generalizing t with
  | nil => exact Or.inl ⟨by simpa using h, by simp [Reader.feedAll]⟩
  | cons c doc ih =>
    have happ : t ++ [c] ++ doc = t ++ c :: doc := by simp
    rw [feedAll_cons, Reader.feed]
    by_cases hend : closing <:+ t ++ [c]
    · right
      obtain ⟨content, hsection⟩ := hend
      have hlen : content.length = t.length - 2 := by
        have := congrArg List.length hsection
        simp only [List.length_append, closing, List.length_cons, List.length_nil] at this
        omega
      refine ⟨content, doc, by rw [hsection, happ], ?_⟩
      simp only [← hsection, List.suffix_append, if_true]
      rw [← hlen, List.take_left]
    · simp only [if_neg hend]
      have hnot : ¬ closing <:+: t ++ [c] := by
        rw [List.infix_concat_iff]
        rintro (hsuffix | hoccurs)
        · exact hend hsuffix
        · exact h hoccurs
      have hrest := ih hnot
      rwa [happ] at hrest

/-! ### What is written -/

/-- Names and texts that the reader does not take for something else. -/
def Event.plain : Event → Bool
  | start name => '>' ∉ name && name.head? != some '/' && name.head? != some '!'
  | stop name => '>' ∉ name
  | text t => t != [] && '<' ∉ t
  | cdata _ => true

def Event.isText : Event → Bool
  | text _ => true
  | _ => false

/-- No two texts stand next to each other. -/
def plainFrom (afterText : Bool) : List Event → Bool
  | [] => true
  | e :: events => e.plain && !(afterText && e.isText) && plainFrom e.isText events

def Plain (events : List Event) : Prop := plainFrom false events = true

instance (events : List Event) : Decidable (Plain events) :=
  inferInstanceAs (Decidable (_ = true))

/-- No `]]>` in a CDATA section. -/
def Event.closed : Event → Prop
  | cdata t => ¬ closing <:+: t
  | _ => True

theorem tagEvent_of_head (h : name.head? ≠ some '/') : tagEvent name = .start name := by
  unfold tagEvent
  split
  · simp at h
  · rfl

/-- Only a `>` can complete a `]]>`. -/
theorem not_closing_concat {c : Char} (hc : c ≠ '>') (h : ¬ closing <:+: t) :
    ¬ closing <:+: t ++ [c] := by
  rw [List.infix_concat_iff]
  rintro (⟨before, hsuffix⟩ | hoccurs)
  · have hlast := congrArg List.getLast? hsuffix
    simp only [closing, List.getLast?_append, List.getLast?_singleton, List.getLast?_cons_cons,
      Option.some_or, Option.some.injEq] at hlast
    exact hc hlast.symm
  · exact h hoccurs

/-- A CDATA section that does not hold what ends it is read as it is. -/
theorem feedAll_section (h : ¬ closing <:+: t) :
    Reader.feedAll ⟨.cdata [], events⟩ (t ++ closing) = ⟨.text [], events ++ [.cdata t]⟩ := by
  have hnot : ¬ closing <:+: t ++ [']'] ++ [']'] :=
    not_closing_concat (by decide) (not_closing_concat (by decide) h)
  have hread : Reader.feedAll ⟨.cdata [], events⟩ (t ++ [']'] ++ [']']) =
      ⟨.cdata (t ++ [']'] ++ [']']), events⟩ := by
    rcases @feedAll_cdata [] events (by simp [closing]) (t ++ [']'] ++ [']']) with
      ⟨-, hread⟩ | ⟨content, rest, hsplit, -⟩
    · exact hread
    · rw [List.nil_append] at hsplit
      exact absurd ⟨content, rest, hsplit.symm⟩ hnot
  have hsplit : t ++ closing = t ++ [']'] ++ [']'] ++ ['>'] := by simp [closing]
  rw [hsplit, feedAll_append, hread, feedAll_cons, Reader.feed]
  simp only [← hsplit, List.suffix_append, if_true]
  simp [Reader.feedAll]

/-- A CDATA section begins, and ends the text before it. -/
theorem feedAll_opening {acc : List Char} : Reader.feedAll ⟨.text acc, events⟩ ('<' :: opening) =
    ⟨.cdata [], events ++ textEvent acc⟩ := by
  simp [Reader.feedAll, Reader.feed, opening]

/-- Reading an event that is written plainly and closed where it should be. -/
theorem feedAll_write {acc : List Char} (hplain : e.plain = true)
    (htext : acc ≠ [] → e.isText = false) (hclosed : e.closed) :
    ∃ acc' events', Reader.feedAll ⟨.text acc, events⟩ e.write = ⟨.text acc', events'⟩ ∧
      events' ++ textEvent acc' = events ++ textEvent acc ++ [e] ∧
      (acc' ≠ [] ↔ e.isText = true) := by
  cases e with
  | start name =>
    simp only [Event.plain, Bool.and_eq_true, decide_eq_true_eq, bne_iff_ne] at hplain
    refine ⟨[], events ++ textEvent acc ++ [.start name], ?_, by simp [textEvent],
      by simp [Event.isText]⟩
    rw [Event.write, List.cons_append, feedAll_cons, Reader.feed]
    simp only [if_true]
    have htag := @feedAll_tag name [] (events ++ textEvent acc) hplain.1.1 hplain.2
    rw [htag, List.nil_append, tagEvent_of_head hplain.1.2]
  | stop name =>
    simp only [Event.plain, decide_eq_true_eq] at hplain
    refine ⟨[], events ++ textEvent acc ++ [.stop name], ?_, by simp [textEvent],
      by simp [Event.isText]⟩
    rw [Event.write, List.cons_append, feedAll_cons, Reader.feed]
    simp only [if_true]
    have htag := @feedAll_tag ('/' :: name) [] (events ++ textEvent acc)
      (by simpa using hplain) (by simp)
    exact htag
  | text t =>
    simp only [Event.plain, Bool.and_eq_true, bne_iff_ne, decide_eq_true_eq] at hplain
    have hacc : acc = [] := by
      by_contra hne
      exact absurd (htext hne) (by simp [Event.isText])
    subst hacc
    refine ⟨t, events, ?_, by simp [textEvent, hplain.1], by simp [Event.isText, hplain.1]⟩
    rw [Event.write, feedAll_text hplain.2, List.nil_append]
  | cdata t =>
    refine ⟨[], events ++ textEvent acc ++ [.cdata t], ?_, by simp [textEvent],
      by simp [Event.isText]⟩
    rw [Event.write, List.append_assoc, feedAll_append, feedAll_opening, feedAll_section hclosed]

/-- A CDATA section that holds what ends it is read as something shorter. -/
theorem feedAll_write_open {acc : List Char} (hopen : ¬ (Event.cdata t).closed) :
    ∃ content, content ≠ t ∧ events ++ textEvent acc ++ [.cdata content] <+:
      (Reader.feedAll ⟨.text acc, events⟩ (Event.cdata t).write).events := by
  obtain ⟨before, after, hoccurs⟩ := not_not.mp hopen
  rw [Event.write, List.append_assoc, feedAll_append, feedAll_opening, feedAll_append]
  rcases @feedAll_cdata [] (events ++ textEvent acc) (by simp [closing]) t with
    ⟨hnot, -⟩ | ⟨content, rest, hsplit, hread⟩
  · exact absurd ⟨before, after, by simpa using hoccurs⟩ hnot
  · refine ⟨content, ?_, ?_⟩
    · rintro rfl
      have hlen := congrArg List.length hsplit
      simp only [List.nil_append, List.length_append, closing, List.length_cons] at hlen
      omega
    · rw [hread]
      have hread' := events_feedAll ⟨.text [], events ++ textEvent acc ++ [.cdata content]⟩ rest
      exact List.IsPrefix.trans hread' (events_feedAll _ _)

theorem write_cons : write (e :: events) = e.write ++ write events := List.flatMap_cons

/-- Plain events are read as they were written as long as every CDATA section is closed where it
should be, and the first one that is not is read as another one. -/
theorem feedAll_writes {acc : List Char} (hplain : plainFrom (acc != []) events = true) :
    ((∀ e ∈ events, e.closed) ∧
      ∃ acc' events', Reader.feedAll ⟨.text acc, done⟩ (write events) = ⟨.text acc', events'⟩ ∧
        events' ++ textEvent acc' = done ++ textEvent acc ++ events) ∨
    ∃ good t rest content, events = good ++ .cdata t :: rest ∧ content ≠ t ∧
      ¬ (Event.cdata t).closed ∧ done ++ textEvent acc ++ good ++ [.cdata content] <+:
        (Reader.feedAll ⟨.text acc, done⟩ (write events)).events := by
  induction events generalizing acc done with
  | nil => exact Or.inl ⟨by simp, acc, done, rfl, by simp⟩
  | cons e events ih =>
    simp only [plainFrom, Bool.and_eq_true, Bool.not_eq_true', Bool.and_eq_false_iff] at hplain
    obtain ⟨⟨hplain, htext⟩, hrest⟩ := hplain
    by_cases hclosed : e.closed
    · have hacc : acc ≠ [] → e.isText = false := by
        intro hne
        exact htext.resolve_left (by simp [hne])
      obtain ⟨acc', events', hread, hevents, hacc'⟩ := @feedAll_write done e acc hplain hacc hclosed
      have hflag : (acc' != []) = e.isText := by
        rw [Bool.eq_iff_iff, bne_iff_ne]
        exact hacc'
      rw [write_cons, feedAll_append, hread]
      rcases @ih events' acc' (hflag ▸ hrest) with
        ⟨hall, acc'', events'', hread', hevents'⟩ | ⟨good, t, rest, content, rfl, hne, hbad, hpre⟩
      · left
        refine ⟨List.forall_mem_cons.mpr ⟨hclosed, hall⟩, acc'', events'', hread', ?_⟩
        rw [hevents', hevents]
        simp
      · right
        refine ⟨e :: good, t, rest, content, rfl, hne, hbad, ?_⟩
        rw [hevents] at hpre
        simpa using hpre
    · right
      cases e with
      | cdata t =>
        obtain ⟨content, hne, hpre⟩ := @feedAll_write_open t done acc hclosed
        refine ⟨[], t, events, content, rfl, hne, hclosed, ?_⟩
        rw [write_cons, feedAll_append, List.append_nil]
        exact List.IsPrefix.trans hpre (events_feedAll _ _)
      | start | stop | text => exact absurd trivial hclosed

/-- **Reading back.** A document of plain events is read as these events exactly if no CDATA
section holds what ends it. -/
theorem read_write_iff (hplain : Plain events) :
    read (write events) = some events ↔ ∀ e ∈ events, e.closed := by
  rcases @feedAll_writes events [] [] hplain with
    ⟨hall, acc, events', hread, hevents⟩ | ⟨good, t, rest, content, rfl, hne, hbad, hpre⟩
  · refine iff_of_true ?_ hall
    rw [read, hread]
    simpa [textEvent] using hevents
  · refine iff_of_false ?_ ?_
    · intro hsome
      have hfront : good ++ [.cdata content] <+: good ++ .cdata t :: rest := by
        unfold read at hsome
        split at hsome
        · rename_i final events' hfinal
          rw [hfinal] at hpre
          simp only [Option.some.injEq] at hsome
          rw [← hsome]
          exact List.IsPrefix.trans (by simpa [textEvent] using hpre) (List.prefix_append _ _)
        · cases hsome
      rw [List.prefix_append_right_inj, List.cons_prefix_cons] at hfront
      exact hne (Event.cdata.inj hfront.1)
    · intro hall
      exact hbad (hall _ (by simp))

end Xml
