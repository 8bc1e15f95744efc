import Webshelf.Lib.Xml
import Mathlib.Data.Bool.AllAny

/-!
# The replies to a message

The builders of `message.rs` put their arguments into CDATA sections as they are.
An argument with `]]>` in it ends its section early, and what follows is read as
part of the document. Without one a reply is read as its elements with just the
arguments in them.
-/

namespace Webshelf

namespace Reply

/-- The text of a literal. -/
def lit (s : String) : List Char := s.toList

/-- A time stamp, as it is displayed. -/
def digits (ts : Int) : List Char := (toString ts).toList

def buildTextReply (ts : Int) (toUser fromUser content : List Char) : List Char :=
  lit "<xml><ToUserName><![CDATA[" ++ toUser ++
    lit "]]></ToUserName><FromUserName><![CDATA[" ++ fromUser ++
    lit "]]></FromUserName><CreateTime>" ++ digits ts ++
    lit "</CreateTime><MsgType><![CDATA[text]]></MsgType><Content><![CDATA[" ++ content ++
    lit "]]></Content></xml>"

def buildImageReply (ts : Int) (toUser fromUser mediaId : List Char) : List Char :=
  lit "<xml><ToUserName><![CDATA[" ++ toUser ++
    lit "]]></ToUserName><FromUserName><![CDATA[" ++ fromUser ++
    lit "]]></FromUserName><CreateTime>" ++ digits ts ++
    lit "</CreateTime><MsgType><![CDATA[image]]></MsgType><Image><MediaId><![CDATA[" ++
    mediaId ++ lit "]]></MediaId></Image></xml>"

def buildNewsReply (ts : Int) (toUser fromUser title description picUrl url : List Char) :
    List Char :=
  lit "<xml><ToUserName><![CDATA[" ++ toUser ++
    lit "]]></ToUserName><FromUserName><![CDATA[" ++ fromUser ++
    lit "]]></FromUserName><CreateTime>" ++ digits ts ++
    lit "</CreateTime><MsgType><![CDATA[news]]></MsgType><ArticleCount>1</ArticleCount>" ++
    lit "<Articles><item><Title><![CDATA[" ++ title ++
    lit "]]></Title><Description><![CDATA[" ++ description ++
    lit "]]></Description><PicUrl><![CDATA[" ++ picUrl ++ lit "]]></PicUrl><Url><![CDATA[" ++
    url ++ lit "]]></Url></item></Articles></xml>"

/-! ### What they are to be read as -/

def element (name : String) (inner : List Xml.Event) : List Xml.Event :=
  .start (lit name) :: inner ++ [.stop (lit name)]

/-- A reply with its sender, its time and its type, and more elements. -/
def reply (ts : Int) (toUser fromUser : List Char) (msgType : String) (more : List Xml.Event) :
    List Xml.Event :=
  element "xml" (element "ToUserName" [.cdata toUser] ++
    element "FromUserName" [.cdata fromUser] ++ element "CreateTime" [.text (digits ts)] ++
    element "MsgType" [.cdata (lit msgType)] ++ more)

def textReply (ts : Int) (toUser fromUser content : List Char) : List Xml.Event :=
  reply ts toUser fromUser "text" (element "Content" [.cdata content])

def imageReply (ts : Int) (toUser fromUser mediaId : List Char) : List Xml.Event :=
  reply ts toUser fromUser "image" (element "Image" (element "MediaId" [.cdata mediaId]))

def newsReply (ts : Int) (toUser fromUser title description picUrl url : List Char) :
    List Xml.Event :=
  reply ts toUser fromUser "news"
    (element "ArticleCount" [.text (lit "1")] ++
      element "Articles" (element "item"
        (element "Title" [.cdata title] ++ element "Description" [.cdata description] ++
          element "PicUrl" [.cdata picUrl] ++ element "Url" [.cdata url])))

variable {ts : Int} {toUser fromUser content mediaId title description picUrl url : List Char}

/-! ### What they write -/

theorem lit_append (a b : String) : lit a ++ lit b = lit (a ++ b) :=
  String.toList_append.symm

theorem lit_append_assoc (a b : String) (rest : List Char) :
    lit a ++ (lit b ++ rest) = lit (a ++ b) ++ rest := by
  rw [← List.append_assoc, lit_append]

theorem write_append (events more : List Xml.Event) :
    Xml.write (events ++ more) = Xml.write events ++ Xml.write more :=
  List.flatMap_append

theorem write_cdata (t : List Char) :
    Xml.write [.cdata t] = lit "<![CDATA[" ++ (t ++ lit "]]>") := by
  simp [Xml.write, Xml.Event.write, Xml.opening, Xml.closing, lit]

theorem write_text (t : List Char) : Xml.write [.text t] = t := by
  simp [Xml.write, Xml.Event.write]

theorem write_element (name : String) (inner : List Xml.Event) :
    Xml.write (element name inner) =
      lit ("<" ++ name ++ ">") ++ (Xml.write inner ++ lit ("</" ++ name ++ ">")) := by
  simp [Xml.write, element, Xml.Event.write, lit]

theorem buildTextReply_eq :
    buildTextReply ts toUser fromUser content =
      Xml.write (textReply ts toUser fromUser content) := by
  simp only [buildTextReply, textReply, reply, write_append, write_element, write_cdata, write_text,
    List.append_assoc, lit_append, lit_append_assoc, String.reduceAppend]

theorem buildImageReply_eq :
    buildImageReply ts toUser fromUser mediaId =
      Xml.write (imageReply ts toUser fromUser mediaId) := by
  simp only [buildImageReply, imageReply, reply, write_append, write_element, write_cdata,
    write_text, List.append_assoc, lit_append, lit_append_assoc, String.reduceAppend]

theorem buildNewsReply_eq :
    buildNewsReply ts toUser fromUser title description picUrl url =
      Xml.write (newsReply ts toUser fromUser title description picUrl url) := by
  simp only [buildNewsReply, newsReply, reply, write_append, write_element, write_cdata, write_text,
    List.append_assoc, lit_append, lit_append_assoc, String.reduceAppend]

theorem isDigit_of_mem_repr {n : Nat} {c : Char} (h : c ∈ n.repr.toList) : c.isDigit = true := by
  rw [Nat.toList_repr] at h
  exact Nat.isDigit_of_mem_toDigits (by omega) (by omega) h

theorem digits_nat (n : Nat) : n.repr.toList ≠ [] ∧ '<' ∉ n.repr.toList := by
  refine ⟨?_, fun h => absurd (isDigit_of_mem_repr h) (by decide)⟩
  rw [Nat.toList_repr]
  exact Nat.toDigits_ne_nil

/-- A time stamp is not empty and begins no tag. -/
theorem digits_plain (ts : Int) : (Xml.Event.text (digits ts)).plain = true := by
  have hplain : digits ts ≠ [] ∧ '<' ∉ digits ts := by
    cases ts with
    | ofNat n => exact digits_nat n
    | negSucc n =>
      have hsplit : digits (Int.negSucc n) = '-' :: (n + 1).repr.toList := by
        change ("-" ++ (n + 1).repr).toList = _
        simp
      rw [hsplit]
      refine ⟨List.cons_ne_nil _ _, ?_⟩
      simpa using (digits_nat (n + 1)).2
  simp [Xml.Event.plain, hplain]

/-! ### Reading them -/

section
variable {name : String} {t : List Char} {inner rest : List Xml.Event} {afterText : Bool}

theorem plain_element (h : (Xml.Event.start (lit name)).plain = true) :
    Xml.plainFrom afterText (element name inner ++ rest) =
      Xml.plainFrom false (inner ++ .stop (lit name) :: rest) := by
  simp [element, Xml.plainFrom, h, Xml.Event.isText]

theorem plain_stop (h : (Xml.Event.start (lit name)).plain = true) :
    Xml.plainFrom afterText (.stop (lit name) :: rest) = Xml.plainFrom false rest := by
  simp only [Xml.Event.plain, Bool.and_eq_true] at h
  simp [Xml.plainFrom, Xml.Event.plain, Xml.Event.isText, of_decide_eq_true h.1.1]

theorem plain_cdata : Xml.plainFrom afterText (.cdata t :: rest) = Xml.plainFrom false rest := by
  simp [Xml.plainFrom, Xml.Event.plain, Xml.Event.isText]

theorem plain_text (h : (Xml.Event.text t).plain = true) :
    Xml.plainFrom false (.text t :: rest) = Xml.plainFrom true rest := by
  simp [Xml.plainFrom, h, Xml.Event.isText]

theorem closed_element : (∀ e ∈ element name inner, e.closed) ↔ ∀ e ∈ inner, e.closed := by
  constructor
  · intro h e he
    exact h e (by simp [element, he])
  · intro h e he
    simp only [element, List.cons_append, List.mem_cons, List.mem_append, List.not_mem_nil,
      or_false] at he
    rcases he with rfl | he | rfl
    · exact trivial
    · exact h e he
    · exact trivial

theorem closed_append : (∀ e ∈ inner ++ rest, e.closed) ↔
    (∀ e ∈ inner, e.closed) ∧ ∀ e ∈ rest, e.closed :=
  List.forall_mem_append

theorem closed_cdata : (∀ e ∈ [Xml.Event.cdata t], e.closed) ↔ ¬ Xml.closing <:+: t := by
  simp [Xml.Event.closed]

end

/-- What a reply adds to the elements that every reply has. -/
theorem plain_reply {msgType : String} {more : List Xml.Event}
    (h : Xml.plainFrom false (more ++ [.stop (lit "xml")]) = true) :
    Xml.Plain (reply ts toUser fromUser msgType more) := by
  have hdigits := digits_plain ts
  have hreply : reply ts toUser fromUser msgType more =
      reply ts toUser fromUser msgType more ++ [] := (List.append_nil _).symm
  rw [Xml.Plain, hreply, reply]
  simp (disch := first | decide | assumption) only [List.append_assoc, plain_element, plain_stop,
    plain_cdata, plain_text, List.cons_append, List.nil_append]
  exact h

theorem closed_reply {msgType : String} {more : List Xml.Event}
    (htype : ¬ Xml.closing <:+: lit msgType) :
    (∀ e ∈ reply ts toUser fromUser msgType more, e.closed) ↔
      ¬ Xml.closing <:+: toUser ∧ ¬ Xml.closing <:+: fromUser ∧ ∀ e ∈ more, e.closed := by
  simp only [reply, closed_element, closed_append, closed_cdata, htype, not_false_eq_true,
    and_true, and_assoc]
  simp [Xml.Event.closed]

theorem read_text : Xml.read (buildTextReply ts toUser fromUser content) =
    some (textReply ts toUser fromUser content) ↔
      ¬ Xml.closing <:+: toUser ∧ ¬ Xml.closing <:+: fromUser ∧ ¬ Xml.closing <:+: content := by
  have hplain : Xml.Plain (textReply ts toUser fromUser content) := by
    apply plain_reply
    simp (disch := decide) only [plain_element, plain_stop, plain_cdata, List.cons_append,
      List.nil_append]
    rfl
  rw [buildTextReply_eq, Xml.read_write_iff hplain, textReply, closed_reply (by decide),
    closed_element, closed_cdata]

theorem read_image : Xml.read (buildImageReply ts toUser fromUser mediaId) =
    some (imageReply ts toUser fromUser mediaId) ↔
      ¬ Xml.closing <:+: toUser ∧ ¬ Xml.closing <:+: fromUser ∧ ¬ Xml.closing <:+: mediaId := by
  have hplain : Xml.Plain (imageReply ts toUser fromUser mediaId) := by
    apply plain_reply
    simp (disch := decide) only [plain_element, plain_stop, plain_cdata, List.cons_append,
      List.nil_append]
    rfl
  rw [buildImageReply_eq, Xml.read_write_iff hplain, imageReply, closed_reply (by decide),
    closed_element, closed_element, closed_cdata]

theorem read_news : Xml.read (buildNewsReply ts toUser fromUser title description picUrl url) =
    some (newsReply ts toUser fromUser title description picUrl url) ↔
      ∀ t ∈ [toUser, fromUser, title, description, picUrl, url], ¬ Xml.closing <:+: t := by
  have hplain : Xml.Plain (newsReply ts toUser fromUser title description picUrl url) := by
    apply plain_reply
    simp (disch := decide) only [plain_element, plain_stop, plain_cdata, plain_text,
      List.append_assoc, List.cons_append, List.nil_append]
    rfl
  rw [buildNewsReply_eq, Xml.read_write_iff hplain, newsReply, closed_reply (by decide)]
  simp only [closed_append, closed_element, List.forall_mem_cons, List.not_mem_nil, false_implies,
    implies_true, and_true, and_assoc]
  simp [Xml.Event.closed]

/-- **When a reply is free of injection.** A reply is read as its own elements with exactly the
given strings in them if and only if none of the strings holds `]]>`. -/
theorem replies_read_back_iff (ts : Int) (toUser fromUser : List Char) :
    (∀ content, Xml.read (buildTextReply ts toUser fromUser content) =
      some (textReply ts toUser fromUser content) ↔
        ∀ t ∈ [toUser, fromUser, content], ¬ "]]>".toList <:+: t) ∧
    (∀ mediaId, Xml.read (buildImageReply ts toUser fromUser mediaId) =
      some (imageReply ts toUser fromUser mediaId) ↔
        ∀ t ∈ [toUser, fromUser, mediaId], ¬ "]]>".toList <:+: t) ∧
    ∀ title description picUrl url,
      Xml.read (buildNewsReply ts toUser fromUser title description picUrl url) =
        some (newsReply ts toUser fromUser title description picUrl url) ↔
          ∀ t ∈ [toUser, fromUser, title, description, picUrl, url], ¬ "]]>".toList <:+: t := by
  have hclosing : "]]>".toList = Xml.closing := by decide
  rw [hclosing]
  refine ⟨?_, ?_, fun _ _ _ _ => read_news⟩
  · intro content
    rw [read_text]
    simp
  · intro mediaId
    rw [read_image]
    simp

/-- A sender whose name closes its section and brings an element of its own. -/
def injectedUser : List Char :=
  "o]]></ToUserName><Url>u</Url><ToUserName><![CDATA[o".toList

theorem injected_reply :
    Xml.read (buildTextReply 0 injectedUser "gh".toList "hi".toList) ≠
        some (textReply 0 injectedUser "gh".toList "hi".toList) ∧
      (Xml.read (buildTextReply 0 injectedUser "gh".toList "hi".toList)).any
        (·.contains (.start "Url".toList)) = true := by
  decide +kernel

end Reply

end Webshelf
