import CommentScope.Xml.Document

/-!
# Plain documents

A document without a document type has no entities of its own, so the values of attributes that are
written without references, tags and white space stand for themselves (`Xml.valuesOf?_plain`). What
such a document is can then be read off step by step (`Xml.Document.read?_of_content`).
-/

namespace CommentScope.Xml

/-- Characters that are no white space stand for themselves. -/
theorem Doctype.expand_map_char (d : Doctype) (depth : Nat) (within : List String) {cs : List Char}
    (h : cs.any isBlank = false) : d.expand depth within (cs.map .char) = some cs := by
  induction cs with
  | nil => rw [List.map_nil, expand]
  | cons c cs ih =>
    obtain ⟨hc, hcs⟩ := Bool.or_eq_false_iff.1 (List.any_cons.symm.trans h)
    rw [List.map_cons, expand, ih hcs, hc]
    rfl

/-- Whether the value of an attribute is written without references, tags and white space. -/
def IsPlainValue (cs : List Char) : Prop :=
  pieces? cs = some (cs.map .char) ∧ cs.contains '<' = false ∧ cs.any isBlank = false

instance (cs : List Char) : Decidable (IsPlainValue cs) :=
  inferInstanceAs (Decidable (_ ∧ _ ∧ _))

theorem IsPlainValue.valueOf?_eq {cs : List Char} (h : IsPlainValue cs) (d : Doctype) :
    d.valueOf? true cs = some cs := by
  obtain ⟨hpieces, htag, hblank⟩ := h
  rw [Doctype.valueOf?, htag, hpieces]
  show (d.expand d.entities.length [] (cs.map .char)).bind some = _
  rw [d.expand_map_char _ _ hblank]
  rfl

/-- **Plain values stand for themselves** in a document without a document type. -/
theorem valuesOf?_plain {standsAlone : Bool} (element : QName)
    {attributes : List (QName × List Char)} (hnames : (attributes.map Prod.fst).Nodup)
    (h : ∀ a ∈ attributes, IsPlainValue a.2) :
    Content.valuesOf? (.empty standsAlone) element attributes =
      some (attributes.map fun a ↦ (a.1, String.ofList a.2)) := by
  have hvalues : (attributes.mapM fun a ↦
      (Doctype.empty standsAlone).valueOf? true a.2 >>= fun value ↦
        some (a.1, String.ofList value)) =
      some (attributes.map fun a ↦ (a.1, String.ofList a.2)) := by
    clear hnames
    induction attributes with
    | nil => rfl
    | cons a attributes ih =>
      obtain ⟨name, value⟩ := a
      obtain ⟨hvalue, hrest⟩ := List.forall_mem_cons.1 h
      rw [List.mapM_cons, ih hrest]
      simp only [hvalue.valueOf?_eq]
      rfl
  rw [Content.valuesOf?, decide_eq_true hnames]
  show (attributes.mapM fun a ↦
      (Doctype.empty standsAlone).valueOf? true a.2 >>= fun value ↦
        some (a.1, String.ofList value)).bind (fun given ↦ some (given ++ [])) = _
  rw [hvalues]
  exact congrArg some (List.append_nil _)

/-- Elements that are empty and stand one after the other. -/
theorem Content.elements_empty {d : Doctype} {depth : Nat} {within : List String}
    {tags : List (String × Scope)} {s inner : Scope} {name : QName}
    {attributes : List (QName × List Char)} {e : Element} {rest : List Token} {es : List Element}
    (he : element? d s name attributes = some (e, inner))
    (hrest : elements d depth within tags s rest = some es) :
    elements d depth within tags s (.opening name attributes true :: rest) = some (e :: es) := by
  rw [elements, he]
  show (elements d depth within tags s rest).bind (fun following ↦ some (e :: following)) = _
  rw [hrest]
  rfl

/-- An element with what is inside of it. -/
theorem Content.elements_opening {d : Doctype} {depth : Nat} {within : List String}
    {tags : List (String × Scope)} {s inner : Scope} {name : QName}
    {attributes : List (QName × List Char)} {e : Element} {rest : List Token} {es : List Element}
    (he : element? d s name attributes = some (e, inner))
    (hrest : elements d depth within ((written name, s) :: tags) inner rest = some es) :
    elements d depth within tags s (.opening name attributes false :: rest) = some (e :: es) := by
  rw [elements, he]
  show (elements d depth within ((written name, s) :: tags) inner rest).bind
    (fun following ↦ some (e :: following)) = _
  rw [hrest]
  rfl

/-- The end of the only element that is open. -/
theorem Content.elements_closing {d : Doctype} {depth : Nat} {within : List String}
    {s outer : Scope} {tag : String} :
    elements d depth within [(tag, outer)] s [.closing tag] = some [] := by
  rw [elements, if_pos rfl, elements]
  rfl

/-- **A document is known by its parts**: what it holds is the elements of its tokens. -/
theorem Document.read?_of_content {bytes : List UInt8} {declaration : Declaration}
    {text content : List Char} {doctype : Doctype} {tokens root : List Content.Token} {e : Element}
    {below : List Element} (htext : Encoding.textOf? bytes = .ok (declaration, text))
    (hchars : text.all isChar = true)
    (hprolog : prolog ((Text.Newline.unify text).length + 1) declaration.standsAlone
      (Text.Newline.unify text) = some (doctype, content))
    (htokens : Content.tokensOf? content = some tokens)
    (hroot : Content.splitRoot 0 (tokens.dropWhile Content.isOutside) = (root, []))
    (helements : Content.elements doctype doctype.entities.length [] [] .standard root =
      some (e :: below)) :
    read? bytes = .ok ⟨e, below⟩ := by
  have hsingle : Content.single? doctype content = some (e :: below) := by
    rw [Content.single?, htokens]
    simp only [Option.bind_eq_bind, Option.bind_some, hroot]
    exact helements
  have hdocument : ofText? declaration.standsAlone text = some ⟨e, below⟩ := by
    rw [ofText?, hchars]
    show (prolog ((Text.Newline.unify text).length + 1) declaration.standsAlone
      (Text.Newline.unify text)).bind _ = _
    rw [hprolog]
    show (Content.single? doctype content).bind _ = _
    rw [hsingle]
    rfl
  rw [read?, htext]
  simp only [bind, Except.bind, hdocument]
  rfl

end CommentScope.Xml
