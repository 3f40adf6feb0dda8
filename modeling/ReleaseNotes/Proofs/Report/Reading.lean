import Mathlib.Data.List.Basic
import Mathlib.Data.List.TakeWhile
import ReleaseNotes.Report.Html

/-!
Pages read as trees. A reader goes through the characters of a page, and every tag that begins an
element needs a tag that ends it. Reading a tree that was written gives it back.
-/

namespace ReleaseNotes.Html

inductive Node where
  | char (c : Char)
  /-- A reference that no text is written with. -/
  | reference (name : List Char)
  /-- A tag that begins nothing. -/
  | void (source : List Char)
  | element (source : List Char) (content : List Node)

def references : List (List Char × Char) :=
  [("lt".toList, '<'), ("gt".toList, '>'), ("amp".toList, '&'), ("quot".toList, '"'),
    ("#x27".toList, '\'')]

def voidNames : List (List Char) := ["!DOCTYPE".toList, "meta".toList]

def nameOf (source : List Char) : List Char :=
  source.takeWhile (· != ' ')

section Writing

mutual

def Node.write : Node → List Char
  | .char c => Html.reference c
  | .reference name => '&' :: (name ++ [';'])
  | .void source => '<' :: (source ++ ['>'])
  | .element source content =>
    '<' :: (source ++ '>' :: (writeAll content ++ '<' :: '/' :: (nameOf source ++ ['>'])))

def writeAll : List Node → List Char
  | [] => []
  | node :: nodes => node.write ++ writeAll nodes

end

mutual

/-- A part that can be told from others when it is written. -/
def Node.IsSound : Node → Prop
  | .char _ => True
  | .reference name => ';' ∉ name ∧ references.lookup name = none
  | .void source => '>' ∉ source ∧ nameOf source ∈ voidNames
  | .element source content =>
    '>' ∉ source ∧ nameOf source ∉ voidNames ∧ source.head? ≠ some '/' ∧ AllSound content

def AllSound : List Node → Prop
  | [] => True
  | node :: nodes => node.IsSound ∧ AllSound nodes

end

end Writing

section Reading

inductive Mode where
  | text
  | tag (source : List Char)
  | reference (name : List Char)

structure Reader where
  mode : Mode
  /-- What the innermost element has had so far. -/
  content : List Node
  /-- The elements around, from the innermost one on, each with what stands before it. -/
  around : List (List Char × List Node)

namespace Reader

def begin : Reader := ⟨.text, [], []⟩

def named (name : List Char) : Node :=
  match references.lookup name with
  | some c => .char c
  | none => .reference name

def ended (reader : Reader) (name : List Char) : Option Reader :=
  match reader.around with
  | [] => none
  | (source, before) :: around =>
    if nameOf source = name then
      some ⟨.text, before ++ [.element source reader.content], around⟩
    else none

def tagged (reader : Reader) (source : List Char) : Option Reader :=
  if nameOf source ∈ voidNames then
    some ⟨.text, reader.content ++ [.void source], reader.around⟩
  else
    match source with
    | '/' :: name => reader.ended name
    | source => some ⟨.text, [], (source, reader.content) :: reader.around⟩

def step (reader : Reader) (c : Char) : Option Reader :=
  match reader.mode with
  | .text =>
    if c = '<' then some { reader with mode := .tag [] }
    else if c = '&' then some { reader with mode := .reference [] }
    else some { reader with content := reader.content ++ [.char c] }
  | .tag source =>
    if c = '>' then reader.tagged source
    else some { reader with mode := .tag (source ++ [c]) }
  | .reference name =>
    if c = ';' then some ⟨.text, reader.content ++ [named name], reader.around⟩
    else some { reader with mode := .reference (name ++ [c]) }

def run (reader : Reader) (chars : List Char) : Option Reader :=
  chars.foldlM step reader

end Reader

def read? (page : String) : Option (List Node) :=
  match Reader.begin.run page.toList with
  | some ⟨.text, content, []⟩ => some content
  | _ => none

namespace Reader

variable {content : List Node} {around : List (List Char × List Node)}

theorem run_cons (reader : Reader) (c : Char) (chars : List Char) :
    reader.run (c :: chars) = (reader.step c).bind fun next => next.run chars := rfl

theorem run_append (reader : Reader) (first second : List Char) :
    reader.run (first ++ second) = (reader.run first).bind fun next => next.run second :=
  List.foldlM_append

/-- A tag is read up to its end. -/
theorem run_tag (start : List Char) {rest : List Char} (h : '>' ∉ rest) :
    run ⟨.tag start, content, around⟩ (rest ++ ['>']) =
      tagged ⟨.text, content, around⟩ (start ++ rest) := by
  induction rest generalizing start with
  | nil =>
    have hend : run ⟨.tag start, content, around⟩ ['>'] =
        (tagged ⟨.text, content, around⟩ start).bind some := rfl
    rw [List.nil_append, hend, Option.bind_fun_some, List.append_nil]
  | cons c rest ih =>
    obtain ⟨hc, hrest⟩ : '>' ≠ c ∧ '>' ∉ rest := by simpa using h
    have hstep : step ⟨.tag start, content, around⟩ c =
        some ⟨.tag (start ++ [c]), content, around⟩ := if_neg (Ne.symm hc)
    rw [List.cons_append, run_cons, hstep, Option.bind_some, ih _ hrest, List.append_assoc,
      List.singleton_append]

theorem run_reference (start : List Char) {rest : List Char} (h : ';' ∉ rest) :
    run ⟨.reference start, content, around⟩ (rest ++ [';']) =
      some ⟨.text, content ++ [named (start ++ rest)], around⟩ := by
  induction rest generalizing start with
  | nil =>
    rw [List.append_nil]
    rfl
  | cons c rest ih =>
    obtain ⟨hc, hrest⟩ : ';' ≠ c ∧ ';' ∉ rest := by simpa using h
    have hstep : step ⟨.reference start, content, around⟩ c =
        some ⟨.reference (start ++ [c]), content, around⟩ := if_neg (Ne.symm hc)
    rw [List.cons_append, run_cons, hstep, Option.bind_some, ih _ hrest, List.append_assoc,
      List.singleton_append]

theorem run_named {name : List Char} (h : ';' ∉ name) :
    run ⟨.text, content, around⟩ ('&' :: (name ++ [';'])) =
      some ⟨.text, content ++ [named name], around⟩ := by
  have hstep : step ⟨.text, content, around⟩ '&' = some ⟨.reference [], content, around⟩ := rfl
  rw [run_cons, hstep, Option.bind_some, run_reference [] h, List.nil_append]

/-- A character has a reference, or it is read as it stands. -/
theorem reference_cases (c : Char) :
    (∃ name, (name, c) ∈ references ∧ Html.reference c = '&' :: (name ++ [';'])) ∨
      c ≠ '<' ∧ c ≠ '&' ∧ Html.reference c = [c] := by
  by_cases hless : c = '<'
  · exact Or.inl ⟨"lt".toList, by simp [references, hless], by simp [Html.reference, hless]⟩
  by_cases hgreater : c = '>'
  · exact Or.inl ⟨"gt".toList, by simp [references, hgreater], by simp [Html.reference, hgreater]⟩
  by_cases hampersand : c = '&'
  · exact Or.inl
      ⟨"amp".toList, by simp [references, hampersand], by simp [Html.reference, hampersand]⟩
  by_cases hquote : c = '"'
  · exact Or.inl ⟨"quot".toList, by simp [references, hquote], by simp [Html.reference, hquote]⟩
  by_cases hapostrophe : c = '\''
  · exact Or.inl
      ⟨"#x27".toList, by simp [references, hapostrophe], by simp [Html.reference, hapostrophe]⟩
  have hwritten : Html.reference c = [c] := by
    simp [Html.reference, hless, hgreater, hampersand, hquote, hapostrophe]
  exact Or.inr ⟨hless, hampersand, hwritten⟩

theorem named_of_mem {name : List Char} {c : Char} (h : (name, c) ∈ references) :
    ';' ∉ name ∧ named name = .char c := by
  have hall : ∀ entry ∈ references, ';' ∉ entry.1 ∧ references.lookup entry.1 = some entry.2 := by
    decide +kernel
  obtain ⟨hend, hlookup⟩ := hall (name, c) h
  refine ⟨hend, ?_⟩
  rw [named, hlookup]

/-- However a character is written, it is read again. -/
theorem run_char (c : Char) :
    run ⟨.text, content, around⟩ (Html.reference c) =
      some ⟨.text, content ++ [.char c], around⟩ := by
  rcases reference_cases c with ⟨name, hmem, hwritten⟩ | ⟨hless, hampersand, hwritten⟩
  · obtain ⟨hend, hnamed⟩ := named_of_mem hmem
    rw [hwritten, run_named hend, hnamed]
  · have hstep : step ⟨.text, content, around⟩ c =
        some ⟨.text, content ++ [.char c], around⟩ := by
      simp [step, hless, hampersand]
    rw [hwritten, run_cons, hstep]
    rfl

theorem run_source {source : List Char} (h : '>' ∉ source) :
    run ⟨.text, content, around⟩ ('<' :: (source ++ ['>'])) =
      tagged ⟨.text, content, around⟩ source := by
  have hstep : step ⟨.text, content, around⟩ '<' = some ⟨.tag [], content, around⟩ := rfl
  rw [run_cons, hstep, Option.bind_some, run_tag [] h, List.nil_append]

theorem tagged_void {source : List Char} (h : nameOf source ∈ voidNames) :
    tagged ⟨.text, content, around⟩ source =
      some ⟨.text, content ++ [.void source], around⟩ := if_pos h

/-- A tag that begins an element puts aside what was read before it. -/
theorem tagged_element {source : List Char} (hname : nameOf source ∉ voidNames)
    (hbegin : source.head? ≠ some '/') :
    tagged ⟨.text, content, around⟩ source = some ⟨.text, [], (source, content) :: around⟩ := by
  rw [tagged, if_neg hname]
  intro name hslash
  rw [hslash] at hbegin
  exact hbegin rfl

/-- The tag that ends an element takes up again what was put aside. -/
theorem tagged_end {source : List Char} {before : List Node} :
    tagged ⟨.text, content, (source, before) :: around⟩ ('/' :: nameOf source) =
      some ⟨.text, before ++ [.element source content], around⟩ := by
  have hname : nameOf ('/' :: nameOf source) ∉ voidNames := by
    simp [nameOf, voidNames]
  rw [tagged, if_neg hname]
  exact if_pos rfl

end Reader

theorem notMem_nameOf {source : List Char} (h : '>' ∉ source) : '>' ∉ '/' :: nameOf source := by
  have hname : '>' ∉ nameOf source := fun hmem => h (List.takeWhile_subset _ hmem)
  simpa using hname

open Reader in
mutual

/-- Reading what is written for a node adds the node, by recursion on the tree. What was read before
it stays. -/
theorem Node.run_write (node : Node) (h : node.IsSound) (content : List Node)
    (around : List (List Char × List Node)) :
    run ⟨.text, content, around⟩ node.write = some ⟨.text, content ++ [node], around⟩ :=
  match node, h with
  | .char c, _ => by
    rw [Node.write]
    exact run_char c
  | .reference name, h => by
    rw [Node.IsSound] at h
    have hnamed : named name = .reference name := by rw [named, h.2]
    rw [Node.write, run_named h.1, hnamed]
  | .void source, h => by
    rw [Node.IsSound] at h
    rw [Node.write, run_source h.1, tagged_void h.2]
  | .element source inner, h => by
    rw [Node.IsSound] at h
    obtain ⟨hsource, hname, hbegin, hinner⟩ := h
    -- What stands before the element waits around it until the second tag.
    have hwritten : Node.write (.element source inner) =
        '<' :: (source ++ ['>']) ++ (writeAll inner ++ '<' :: ('/' :: nameOf source ++ ['>'])) := by
      simp [Node.write]
    rw [hwritten, run_append, run_source hsource, tagged_element hname hbegin, Option.bind_some,
      run_append, run_writeAll inner hinner, Option.bind_some, run_source (notMem_nameOf hsource),
      tagged_end, List.nil_append]

/-- Sound parts are read as they were before they were written. -/
theorem run_writeAll (nodes : List Node) (h : AllSound nodes) (content : List Node)
    (around : List (List Char × List Node)) :
    run ⟨.text, content, around⟩ (writeAll nodes) = some ⟨.text, content ++ nodes, around⟩ :=
  match nodes, h with
  | [], _ => by
    rw [writeAll, List.append_nil]
    rfl
  | node :: nodes, h => by
    rw [AllSound] at h
    rw [writeAll, run_append, node.run_write h.1, Option.bind_some, run_writeAll nodes h.2,
      List.append_assoc, List.singleton_append]

end

/-- A page that is written for sound nodes is read as these nodes. -/
theorem read?_writeAll {nodes : List Node} (h : AllSound nodes) {page : String}
    (hpage : page.toList = writeAll nodes) : read? page = some nodes := by
  have hrun : Reader.begin.run page.toList = some ⟨.text, nodes, []⟩ := by
    rw [hpage]
    exact run_writeAll nodes h [] []
  rw [read?, hrun]

end Reading

section Parts

variable {α : Type}

def plain (content : String) : List Node :=
  content.toList.map .char

def Node.ofTag (source : String) (content : List Node) : Node :=
  .element source.toList content

@[simp] theorem writeAll_append (first second : List Node) :
    writeAll (first ++ second) = writeAll first ++ writeAll second := by
  induction first with
  | nil => rfl
  | cons node nodes ih => rw [List.cons_append, writeAll, writeAll, ih, List.append_assoc]

@[simp] theorem writeAll_cons (node : Node) (nodes : List Node) :
    writeAll (node :: nodes) = node.write ++ writeAll nodes := rfl

@[simp] theorem writeAll_nil : writeAll [] = [] := rfl

@[simp] theorem writeAll_plain (content : String) :
    writeAll (plain content) = content.toList.flatMap Html.reference := by
  have hchars (chars : List Char) :
      writeAll (chars.map .char) = chars.flatMap Html.reference := by
    induction chars with
    | nil => rfl
    | cons c chars ih => rw [List.map_cons, writeAll, ih, Node.write, List.flatMap_cons]
  exact hchars content.toList

@[simp] theorem allSound_cons {node : Node} {nodes : List Node} :
    AllSound (node :: nodes) ↔ node.IsSound ∧ AllSound nodes := Iff.rfl

@[simp] theorem allSound_nil : AllSound [] := trivial

@[simp] theorem allSound_append {first second : List Node} :
    AllSound (first ++ second) ↔ AllSound first ∧ AllSound second := by
  induction first with
  | nil => simp [AllSound]
  | cons node nodes ih => rw [List.cons_append, AllSound, AllSound, ih, and_assoc]

theorem allSound_iff {nodes : List Node} : AllSound nodes ↔ ∀ node ∈ nodes, node.IsSound := by
  induction nodes with
  | nil => simp [AllSound]
  | cons node nodes ih => rw [AllSound, ih, List.forall_mem_cons]

@[simp] theorem allSound_plain (content : String) : AllSound (plain content) := by
  rw [allSound_iff]
  intro node hnode
  obtain ⟨c, _, rfl⟩ := List.mem_map.mp hnode
  exact trivial

/-- A character of a text does not end a tag. -/
theorem notMem_reference (c : Char) : '>' ∉ Html.reference c := by
  unfold Html.reference
  split
  · decide +kernel
  split
  · decide +kernel
  split
  · decide +kernel
  split
  · decide +kernel
  split
  · decide +kernel
  · rename_i hgreater _ _ _
    simpa using Ne.symm hgreater

@[simp] theorem write_ofTag (source : String) (content : List Node) :
    (Node.ofTag source content).write =
      '<' :: (source.toList ++ '>' ::
        (writeAll content ++ '<' :: '/' :: (nameOf source.toList ++ ['>']))) := by
  rw [Node.ofTag, Node.write]

def IsTag (source : String) : Prop :=
  '>' ∉ source.toList ∧ nameOf source.toList ∉ voidNames ∧ source.toList.head? ≠ some '/'

instance (source : String) : Decidable (IsTag source) :=
  inferInstanceAs (Decidable (_ ∧ _ ∧ _))

theorem isSound_ofTag {source : String} {content : List Node} (h : IsTag source) :
    (Node.ofTag source content).IsSound ↔ AllSound content := by
  obtain ⟨hend, hname, hbegin⟩ := h
  simp [Node.ofTag, Node.IsSound, hend, hname, hbegin]

@[simp] theorem toList_render (html : Html) : html.render.toList = html.flatMap Piece.chars := by
  rw [render, String.toList_ofList]

@[simp] theorem chars_markup (source : String) :
    (markup source).flatMap Piece.chars = source.toList :=
  List.append_nil _

@[simp] theorem chars_escaped (content : String) :
    (escaped content).flatMap Piece.chars = content.toList.flatMap Html.reference :=
  List.append_nil _

/-- The layout puts these parts on a page. -/
structure Spells (html : Html) (nodes : List Node) : Prop where
  chars_eq : html.flatMap Piece.chars = writeAll nodes
  allSound : AllSound nodes

namespace Spells

variable {first second : Html} {firstNodes secondNodes : List Node}

theorem nil : Spells [] [] := ⟨rfl, trivial⟩

theorem append (hfirst : Spells first firstNodes) (hsecond : Spells second secondNodes) :
    Spells (first ++ second) (firstNodes ++ secondNodes) where
  chars_eq := by rw [List.flatMap_append, hfirst.chars_eq, hsecond.chars_eq, writeAll_append]
  allSound := allSound_append.mpr ⟨hfirst.allSound, hsecond.allSound⟩

theorem escaped (content : String) : Spells (escaped content) (plain content) where
  chars_eq := by rw [chars_escaped, writeAll_plain]
  allSound := allSound_plain content

/-- Markup without characters that texts are not written with can stand for a text. -/
theorem markup {source : String} (h : source.toList.flatMap reference = source.toList) :
    Spells (markup source) (plain source) where
  chars_eq := by rw [chars_markup, writeAll_plain, h]
  allSound := allSound_plain source

theorem flatMap {layout : α → Html} {nodes : α → List Node}
    (h : ∀ item, Spells (layout item) (nodes item)) (items : List α) :
    Spells (items.flatMap layout) (items.flatMap nodes) := by
  induction items with
  | nil => exact nil
  | cons item items ih =>
    rw [List.flatMap_cons, List.flatMap_cons]
    exact (h item).append ih

theorem onlyIf (condition : Bool) (h : Spells first firstNodes) :
    Spells (onlyIf condition first) (if condition then firstNodes else []) := by
  cases condition with
  | false => exact nil
  | true => exact h

/-- A page is read as what its layout puts on it. -/
theorem read?_render (h : Spells first firstNodes) : read? first.render = some firstNodes := by
  refine read?_writeAll h.allSound ?_
  rw [render, String.toList_ofList, h.chars_eq]

end Spells

section Links

def withValue (start value : String) : String :=
  start ++ (escaped value).render ++ "\""

theorem nameOf_withValue {start : String} (h : ' ' ∈ start.toList) (value : String) :
    nameOf (withValue start value).toList = nameOf start.toList := by
  have hlength : (start.toList.takeWhile (· != ' ')).length ≠ start.toList.length := by
    intro hwhole
    have hall := (List.takeWhile_prefix (· != ' ')).eq_of_length hwhole
    have hspace := List.mem_takeWhile_imp (hall.symm ▸ h : ' ' ∈ start.toList.takeWhile (· != ' '))
    simp at hspace
  rw [nameOf, withValue, String.toList_append, String.toList_append, List.append_assoc,
    List.takeWhile_append, if_neg hlength, nameOf]

/-- A value in quotes is part of its tag, whatever the value is. -/
theorem isTag_withValue {start : String} (hspace : ' ' ∈ start.toList) (h : IsTag start)
    (value : String) : IsTag (withValue start value) := by
  obtain ⟨hend, hname, hbegin⟩ := h
  have hvalue : '>' ∉ (escaped value).render.toList := by
    rw [toList_render, chars_escaped, List.mem_flatMap]
    rintro ⟨c, _, hc⟩
    exact notMem_reference c hc
  refine ⟨?_, ?_, ?_⟩
  · simpa [withValue, hend] using hvalue
  · rwa [nameOf_withValue hspace]
  · obtain ⟨first, rest, hstart⟩ := List.exists_cons_of_ne_nil (List.ne_nil_of_mem hspace)
    rw [hstart] at hbegin
    simpa [withValue, hstart] using hbegin

def linkedNodes (start : String) (content : String) : Option String → List Node
  | some address => [.ofTag (withValue start address) (plain content)]
  | none => plain content

theorem isTag_link (address : String) : IsTag (withValue "a href=\"" address) :=
  isTag_withValue (by decide +kernel) (by decide +kernel) address

theorem isTag_mailLink (address : String) : IsTag (withValue "a href=\"mailto:" address) :=
  isTag_withValue (by decide +kernel) (by decide +kernel) address

theorem spells_linked (address : Option String) (content : String) :
    Spells (linked address content) (linkedNodes "a href=\"" content address) := by
  cases address with
  | none => exact Spells.escaped content
  | some address =>
    refine ⟨?_, (isSound_ofTag (isTag_link address)).mpr (allSound_plain content), trivial⟩
    simp [linked, linkedNodes, withValue, nameOf]

theorem spells_mailLinked (address : Option String) (name : String) :
    Spells (mailLinked address name) (linkedNodes "a href=\"mailto:" name address) := by
  cases address with
  | none => exact Spells.escaped name
  | some address =>
    refine ⟨?_, (isSound_ofTag (isTag_mailLink address)).mpr (allSound_plain name), trivial⟩
    simp [mailLinked, linkedNodes, withValue, nameOf]

end Links

section Page

def Node.ofVoidTag (source : String) : Node :=
  .void source.toList

def styleSheet (styles : List (String × String)) : Html :=
  styles.flatMap fun rule => styleRule rule.1 rule.2

def pageNodes (title : String) (styles : List (String × String)) (nodes : List Node)
    (generatedOn : String) : List Node :=
  [.ofVoidTag "!DOCTYPE html"] ++ plain "\n" ++
    [.ofTag "html lang=\"en\""
      (plain "\n" ++
        [.ofTag "head"
          (plain "\n" ++ [.ofVoidTag "meta charset=\"utf-8\""] ++ plain "\n" ++
            [.ofTag "title" (plain title)] ++ plain "\n" ++
            [.ofTag "style" (plain "\n" ++ plain (styleSheet styles).render)] ++ plain "\n")] ++
        plain "\n" ++
        [.ofTag "body"
          (plain "\n" ++ [.ofTag "h1" (plain title)] ++ plain "\n" ++ nodes ++ plain "\n" ++
            [.ofTag "footer" (plain "Generated on " ++ plain generatedOn ++ plain ".")] ++
            plain "\n")] ++
        plain "\n")]

theorem spells_page {body : Html} {nodes : List Node} (h : Spells body nodes)
    {styles : List (String × String)}
    (hstyles : ((styleSheet styles).flatMap Piece.chars).flatMap reference =
      (styleSheet styles).flatMap Piece.chars)
    (title generatedOn : String) :
    Spells (head title styles ++ body ++ foot generatedOn)
      (pageNodes title styles nodes generatedOn) := by
  rw [styleSheet] at hstyles
  constructor
  · simp [head, foot, pageNodes, styleSheet, Node.ofVoidTag, Node.write, nameOf, reference,
      h.chars_eq, hstyles]
  · have htags : ∀ source ∈
        ["html lang=\"en\"", "head", "title", "style", "body", "h1", "footer"], IsTag source := by
      decide +kernel
    have hvoid : (Node.ofVoidTag "!DOCTYPE html").IsSound ∧
        (Node.ofVoidTag "meta charset=\"utf-8\"").IsSound := by
      simp [Node.ofVoidTag, Node.IsSound, nameOf, voidNames]
    simp [pageNodes, hvoid, isSound_ofTag, htags, h.allSound]

end Page

end Parts

section Selecting

def elements (name : String) (nodes : List Node) : List (List Node) :=
  nodes.filterMap fun
    | .element source content => if nameOf source = name.toList then some content else none
    | _ => none

def elementsAt : List String → List Node → List (List Node)
  | [], nodes => [nodes]
  | name :: names, nodes => (elements name nodes).flatMap (elementsAt names)

mutual

def Node.text : Node → List Char
  | .char c => [c]
  | .reference name => '&' :: (name ++ [';'])
  | .void _ => []
  | .element _ content => textOf content

def textOf : List Node → List Char
  | [] => []
  | node :: nodes => node.text ++ textOf nodes

end

inductive CellText where
  | heading (text : String)
  | data (text : String)
deriving DecidableEq, Repr

def Node.cell? : Node → Option CellText
  | .element source content =>
    if nameOf source = "th".toList then some (.heading (String.ofList (textOf content)))
    else if nameOf source = "td".toList then some (.data (String.ofList (textOf content)))
    else none
  | _ => none

def cellsOf (row : List Node) : List CellText :=
  row.filterMap Node.cell?

def rowsOf (table : List Node) : List (List CellText) :=
  (elements "tr" table).map cellsOf

variable {α : Type}

@[simp] theorem textOf_append (first second : List Node) :
    textOf (first ++ second) = textOf first ++ textOf second := by
  induction first with
  | nil => rfl
  | cons node nodes ih => rw [List.cons_append, textOf, textOf, ih, List.append_assoc]

@[simp] theorem textOf_plain (content : String) : textOf (plain content) = content.toList := by
  have hchars (chars : List Char) : textOf (chars.map .char) = chars := by
    induction chars with
    | nil => rfl
    | cons c chars ih => rw [List.map_cons, textOf, ih, Node.text, List.singleton_append]
  exact hchars content.toList

@[simp] theorem textOf_nil : textOf [] = [] := rfl

@[simp] theorem textOf_cons_ofTag (source : String) (content nodes : List Node) :
    textOf (.ofTag source content :: nodes) = textOf content ++ textOf nodes := rfl

@[simp] theorem textOf_linkedNodes (start content : String) (address : Option String) :
    textOf (linkedNodes start content address) = content.toList := by
  cases address with
  | none => exact textOf_plain content
  | some address => simp [linkedNodes]

/-- A text has no parts that are chosen from elements. -/
theorem filterMap_plain {choose : Node → Option α} (h : ∀ c, choose (.char c) = none)
    (content : String) : (plain content).filterMap choose = [] := by
  rw [plain, List.filterMap_map]
  exact List.filterMap_eq_nil_iff.mpr fun c _ => h c

@[simp] theorem elements_append (name : String) (first second : List Node) :
    elements name (first ++ second) = elements name first ++ elements name second :=
  List.filterMap_append

@[simp] theorem elements_plain (name content : String) : elements name (plain content) = [] :=
  filterMap_plain (fun _ => rfl) content

@[simp] theorem elements_nil (name : String) : elements name [] = [] := rfl

@[simp] theorem elements_cons_ofTag (name source : String) (content nodes : List Node) :
    elements name (.ofTag source content :: nodes) =
      if nameOf source.toList = name.toList then content :: elements name nodes
      else elements name nodes := by
  by_cases hname : nameOf source.toList = name.toList
  · simp [elements, Node.ofTag, hname]
  · simp [elements, Node.ofTag, hname]

theorem elements_flatMap (name : String) (items : List α) (nodes : α → List Node) :
    elements name (items.flatMap nodes) = items.flatMap fun item => elements name (nodes item) :=
  List.filterMap_flatMap

/-- If each item has one element of a name, then these are all. -/
theorem elements_flatMap_eq_map {name : String} {nodes content : α → List Node}
    (h : ∀ item, elements name (nodes item) = [content item]) (items : List α) :
    elements name (items.flatMap nodes) = items.map content := by
  induction items with
  | nil => rfl
  | cons item items ih => rw [List.flatMap_cons, elements_append, h, ih, List.map_cons,
      List.singleton_append]

@[simp] theorem cellsOf_append (first second : List Node) :
    cellsOf (first ++ second) = cellsOf first ++ cellsOf second :=
  List.filterMap_append

@[simp] theorem cellsOf_plain (content : String) : cellsOf (plain content) = [] :=
  filterMap_plain (fun _ => rfl) content

@[simp] theorem cellsOf_nil : cellsOf [] = [] := rfl

@[simp] theorem cellsOf_cons_heading (content nodes : List Node) :
    cellsOf (.ofTag "th" content :: nodes) =
      .heading (String.ofList (textOf content)) :: cellsOf nodes := rfl

@[simp] theorem cellsOf_cons_data (content nodes : List Node) :
    cellsOf (.ofTag "td" content :: nodes) =
      .data (String.ofList (textOf content)) :: cellsOf nodes := rfl

/-- Elements of a page other than its heading and its footer are those that the page is made for. -/
theorem elementsAt_page {name : String} (hheading : name ≠ "h1") (hfooter : name ≠ "footer")
    (names : List String) (title : String) (styles : List (String × String)) (nodes : List Node)
    (generatedOn : String) :
    elementsAt ("html" :: "body" :: name :: names) (pageNodes title styles nodes generatedOn) =
      elementsAt (name :: names) nodes := by
  have hvoid (source : String) (nodes : List Node) :
      elements "html" (.ofVoidTag source :: nodes) = elements "html" nodes := rfl
  have hnames : ['h', '1'] ≠ name.toList ∧ ['f', 'o', 'o', 't', 'e', 'r'] ≠ name.toList := by
    constructor
    · intro h
      exact hheading (String.toList_inj.mp h.symm)
    · intro h
      exact hfooter (String.toList_inj.mp h.symm)
  simp [elementsAt, pageNodes, hvoid, hnames, nameOf]

end Selecting

end ReleaseNotes.Html
