import BoundTree.Derive.Dispatch
import BoundTree.Proofs.Methods
import BoundTree.Proofs.Tabulation

/-!
The dispatch layer that is made of an enumeration. Main statement: it is made exactly of the enumerations that
are well-formed and have plain variants, it has one of everything for every variant, in order, and what names
a variant, its type or its method does so everywhere.
-/
namespace BoundTree.Derive

namespace Setting

/-- The path that a setting gives for a word. -/
def pathFor? (word : String) : Setting → Option Path
  | .value p v => if p.isWord word then some v else none
  | _ => none

/-- What may be said of an enumeration: where its nodes are, and what its traits are called. -/
def SaysDispatch (s : Setting) : Prop :=
  s.GivesIdent ["visitor", "folder"] ∨
    ∃ v, s.pathFor? "node" = some v ∧ ∀ i ∈ v.segments, i.isSegment = true

theorem pathFor?_of_ne {s : Setting} {word : String} (h : s.path.isWord word = false) :
    s.pathFor? word = none := by
  cases s with
  | value p v => simp [pathFor?, show p.isWord word = false from h]
  | _ => rfl

theorem pathValue_eq_ok_of {s : Setting} {word : String} (h : s.path.isWord word = true) {v : Path} :
    s.pathValue = .ok v ↔ s.pathFor? word = some v ∧ ∀ i ∈ v.segments, i.isSegment = true := by
  rw [pathValue_eq_ok]
  cases s with
  | value p w =>
    have hp : p.isWord word = true := h
    simp only [pathFor?, hp, if_true, Setting.value.injEq, Option.some.injEq]
    exact ⟨fun ⟨_, ⟨_, hw⟩, hall⟩ => ⟨hw, hall⟩, fun ⟨hw, hall⟩ => ⟨p, ⟨rfl, hw⟩, hall⟩⟩
  | _ => simp [pathFor?]

end Setting

namespace DispatchSettings

/-- What a setting changes of what was said before. -/
def hear (o : DispatchSettings) (s : Setting) : DispatchSettings where
  node := (s.pathFor? "node").or o.node
  visitor := (s.identFor? "visitor").getD o.visitor
  folder := (s.identFor? "folder").getD o.folder

/-- A setting of another word than that for the nodes. -/
theorem saysDispatch_iff {s : Setting} {word : String} (h : s.path.isWord word = true) (hne : word ≠ "node") :
    s.SaysDispatch ↔ word ∈ ["visitor", "folder"] ∧ ∃ i, s.identValue = .ok i := by
  rw [Setting.SaysDispatch, Setting.givesIdent_iff h,
    Setting.pathFor?_of_ne (Path.isWord_of_ne h hne.symm)]
  simp

theorem saysDispatch_node {s : Setting} (h : s.path.isWord "node" = true) :
    s.SaysDispatch ↔ ∃ v, s.pathValue = .ok v := by
  rw [Setting.SaysDispatch, Setting.givesIdent_iff h]
  simp [Setting.pathValue_eq_ok_of h]

/-- What is said is heard, and nothing else can be read. -/
theorem apply_eq_ok (o : DispatchSettings) (s : Setting) (o' : DispatchSettings) :
    apply o s = .ok o' ↔ s.SaysDispatch ∧ o' = o.hear s := by
  have hother : ∀ {word}, s.path.isWord word = true → ∀ {w}, w ≠ word →
      s.identFor? w = none ∧ s.pathFor? w = none := fun h _ hne =>
    ⟨Setting.identFor?_of_ne (Path.isWord_of_ne h hne), Setting.pathFor?_of_ne (Path.isWord_of_ne h hne)⟩
  have hident : ∀ {word}, s.path.isWord word = true → word ∈ ["visitor", "folder"] →
      ∀ f : Ident → DispatchSettings, (∀ i, s.identFor? word = some i → f i = o.hear s) →
        ((s.identValue >>= fun i => pure (f i)) = .ok o' ↔ s.SaysDispatch ∧ o' = o.hear s) := by
    intro word h hword f hf
    have hne : word ≠ "node" := by rintro rfl; simp at hword
    rw [saysDispatch_iff h hne, and_iff_right hword]
    exact bind_pure_eq_ok fun i hi => hf i ((Setting.identValue_eq_ok_of h).mp hi).1
  unfold apply
  by_cases hnode : s.path.isWord "node"
  · rw [if_pos hnode, saysDispatch_node hnode]
    refine bind_pure_eq_ok fun v hv => ?_
    simp [hear, ((Setting.pathValue_eq_ok_of hnode).mp hv).1, hother hnode]
  rw [if_neg hnode]
  by_cases hvisitor : s.path.isWord "visitor"
  · rw [if_pos hvisitor]
    refine hident hvisitor (by simp) _ fun i hi => ?_
    simp [hear, hi, hother hvisitor]
  rw [if_neg hvisitor]
  by_cases hfolder : s.path.isWord "folder"
  · rw [if_pos hfolder]
    refine hident hfolder (by simp) _ fun i hi => ?_
    simp [hear, hi, hother hfolder]
  rw [if_neg hfolder]
  constructor
  · intro h
    cases h
  · rintro ⟨⟨word, hword, i, hi, -⟩ | ⟨v, hv, -⟩, -⟩
    · have h := Setting.isWord_of_identFor? hi
      simp only [List.mem_cons, List.not_mem_nil, or_false] at hword
      rcases hword with rfl | rfl <;> contradiction
    · rw [Setting.pathFor?_of_ne (Bool.eq_false_iff.mpr hnode)] at hv
      cases hv

/-- What settings say together: the last one counts. -/
theorem foldl_hear (l : List Setting) (o : DispatchSettings) : l.foldl hear o =
    { node := (lastOf? (·.pathFor? "node") l).or o.node
      visitor := (lastOf? (·.identFor? "visitor") l).getD o.visitor
      folder := (lastOf? (·.identFor? "folder") l).getD o.folder } := by
  have hor : ∀ (a b : Option Ident) (i : Ident), (a.or b).getD i = a.getD (b.getD i) := fun a b i => by
    cases a <;> rfl
  induction l generalizing o with
  | nil => simp
  | cons s l ih =>
    rw [List.foldl_cons, ih]
    simp only [hear, lastOf?_cons, Option.or_assoc, hor]

end DispatchSettings

theorem Route.ofVariant?_eq_ok {v : Variant} {r : Route} :
    ofVariant? v = .ok r ↔ r.variant = v.name ∧ v.fields = .unnamed [r.type] := by
  rw [ofVariant?]
  constructor
  · intro h
    split at h
    · next type hfields =>
      cases h
      exact ⟨rfl, hfields⟩
    · cases h
  · rintro ⟨hname, hfields⟩
    rw [hfields, ← hname]

namespace Item

/-- An enumeration of variants that wrap a type each, and of nodes in that place. -/
structure IsDispatch (item : Item) (node : Path) (routes : List Route) : Prop where
  parenthesized : Parenthesized .visitor item.annotations
  settings : ∀ s ∈ given .visitor item.annotations, s.SaysDispatch
  node : lastOf? (·.pathFor? "node") (given .visitor item.annotations) = some node
  variants : ∃ variants, item.form = .enum variants ∧
    List.Forall₂ (fun v r => r.variant = v.name ∧ v.fields = .unnamed [r.type]) variants routes

/-- What a trait is called, if need be after the enumeration. -/
def traitName (item : Item) (word suffix : String) : Ident :=
  (item.said? .visitor word).getD ⟨item.name.bare ++ suffix⟩

def dispatch (item : Item) (node : Path) (routes : List Route) : Dispatch where
  name := item.name
  node := node
  visitor := item.traitName "visitor" "Visitor"
  folder := item.traitName "folder" "Folder"
  routes := routes

end Item

theorem DispatchSettings.read_eq_ok {item : Item} {o : DispatchSettings} :
    DispatchSettings.read item.name item.annotations = .ok o ↔
      (Parenthesized .visitor item.annotations ∧ ∀ s ∈ given .visitor item.annotations, s.SaysDispatch) ∧
        o = ⟨lastOf? (·.pathFor? "node") (given .visitor item.annotations),
          item.traitName "visitor" "Visitor", item.traitName "folder" "Folder"⟩ := by
  rw [DispatchSettings.read, readSettings_eq_ok apply_eq_ok, foldl_hear]
  simp [defaults, Item.traitName, Item.said?]

theorem Dispatch.ofItem?_eq_ok {item : Item} {d : Dispatch} :
    Dispatch.ofItem? item = .ok d ↔
      ∃ node routes, item.IsDispatch node routes ∧ d = item.dispatch node routes := by
  simp only [ofItem?, bind_eq_ok, DispatchSettings.read_eq_ok]
  constructor
  · rintro ⟨_, ⟨⟨hparens, hsettings⟩, rfl⟩, h⟩
    split at h
    · cases h
    · next node hnode =>
      split at h
      · next variants hform =>
        obtain ⟨routes, hroutes, h⟩ := bind_eq_ok.mp h
        cases h
        refine ⟨node, routes, ⟨hparens, hsettings, hnode, variants, hform, ?_⟩, rfl⟩
        exact (mapM_eq_ok.mp hroutes).imp fun _ _ => Route.ofVariant?_eq_ok.mp
      · cases h
  · rintro ⟨node, routes, ⟨hparens, hsettings, hnode, variants, hform, hroutes⟩, rfl⟩
    refine ⟨_, ⟨⟨hparens, hsettings⟩, rfl⟩, ?_⟩
    rw [hnode, hform]
    exact bind_eq_ok.mpr
      ⟨routes, mapM_eq_ok.mpr (hroutes.imp fun _ _ => Route.ofVariant?_eq_ok.mpr), rfl⟩

/-! The code. -/

/-- What the code consists of. -/
structure Layer where
  visitor : Block
  folder : Block
  conversions : List Block
  payload : Block

def Layer.blocks (l : Layer) : List Block := l.visitor :: l.folder :: l.conversions ++ [l.payload]

def Dispatch.layer (d : Dispatch) : Layer := ⟨d.visitorTrait, d.folderTrait, d.conversions, d.payloadBlock⟩

/-- A choice with one case for every variant, in order. -/
def casesFor (routes : List Route) (binder : String) (value : Route → Words) : Body :=
  .choice ["self"] (routes.map fun r => ⟨words "Self : :" ++ r.variant.text :: parens [binder], value r⟩)

/-- The layer has one of everything for every variant, in order. -/
structure Item.Dispatches (item : Item) (node : Path) (routes : List Route) (l : Layer) : Prop where
  /-- The traits have a method for every variant, which takes the type that it wraps, and one to fall back on. -/
  visitorMethods : l.visitor.functions.map (fun f => (f.name, f.parameters)) =
    routes.map (fun r => (r.method, words "& mut self ," ++ (words "operation : &" ++ node.words) ++
      words ", shape : &" ++ r.type.words)) ++
    [("default_visit", words "& mut self ," ++ (words "operation : &" ++ node.words))]
  folderMethods : l.folder.functions.map (fun f => (f.name, f.parameters)) =
    routes.map (fun r => (r.method, words "& mut self ," ++ (words "operation : &" ++ node.words) ++
      words ", shape : &" ++ r.type.words ++ words ", argument : A")) ++
    [("default_visit", words "& mut self ," ++ (words "operation : &" ++ node.words) ++
      words ", argument : A")]
  visitorMembers : l.visitor.members = l.visitor.functions.map .function
  folderMembers : ∃ docs, l.folder.members = .type docs "Output" :: l.folder.functions.map .function
  /-- The type of every variant becomes that variant, and is got back from it. -/
  conversions : l.conversions.map (fun b => (b.head, b.functions.map fun f => (f.name, f.body))) =
    routes.flatMap fun r =>
      [(words "impl : : core : : convert : : From <" ++ r.type.words ++ [">", "for", item.name.text],
          [("from", some (.code (words "Self : :" ++ r.variant.text :: parens ["shape"])))]),
        (words "impl crate : : shape : : ShapeCast for" ++ r.type.words,
          [("cast", some (.choice ["payload"]
            [⟨item.name.text :: ":" :: ":" :: r.variant.text :: parens ["shape"],
                words ": : core : : option : : Option : : Some ( shape )"⟩,
              ⟨["_"], words ": : core : : option : : Option : : None"⟩]))])]
  members : l.payload.members.map Member.name = ["SHAPES", "kind", "shape_name", "slot", "for_each_slot",
    "validate", "describe", "dispatch", "dispatch_with"]
  shapes : l.payload.value? "SHAPES" = some ("&" :: brackets (separated (routes.map fun r =>
    words "crate : : shape : : ShapeDescriptor" ++ braces (
      words "name :" ++ r.table "NAME" ++ words ", kinds :" ++ r.table "KINDS" ++
        words ", slot_names :" ++ r.table "SLOT_NAMES" ++
        words ", visit_method :" ++ [Text.quoteString r.method, ","]))))
  shapeName : l.payload.body? "shape_name" = some (casesFor routes "_" fun r => r.table "NAME")
  forwards : ∀ f ∈ [("kind", ["shape"]), ("slot", words "shape , index"),
      ("for_each_slot", words "shape , visit"), ("validate", words "shape , header"),
      ("describe", words "shape , visit")],
    l.payload.body? f.1 = some (casesFor routes "shape" fun _ =>
      words "crate : : shape : : Shape : :" ++ f.1 :: parens f.2)
  dispatch : l.payload.body? "dispatch" = some (casesFor routes "shape" fun r =>
    "visitor" :: "." :: r.method :: parens (words "operation , shape"))
  dispatchWith : l.payload.body? "dispatch_with" = some (casesFor routes "shape" fun r =>
    "visitor" :: "." :: r.method :: parens (words "operation , shape , argument"))

theorem filterMap_function? (fs : List Function) :
    (fs.map Member.function).filterMap Member.function? = fs := by
  rw [List.filterMap_map]
  exact List.filterMap_some

theorem functions_visitorTrait (d : Dispatch) :
    d.visitorTrait.functions = d.routes.map d.visitorMethod ++ [d.visitorFallback] := by
  have hmembers : d.visitorTrait.members =
      (d.routes.map d.visitorMethod ++ [d.visitorFallback]).map Member.function := by
    simp [Dispatch.visitorTrait]
  rw [Block.functions, hmembers, filterMap_function?]

theorem functions_folderTrait (d : Dispatch) :
    d.folderTrait.functions = d.routes.map d.folderMethod ++ [d.folderFallback] := by
  have hmembers : d.folderTrait.members = .type [.line "Value produced for each visited node"] "Output" ::
      (d.routes.map d.folderMethod ++ [d.folderFallback]).map Member.function := by
    simp [Dispatch.folderTrait]
  rw [Block.functions, hmembers, List.filterMap_cons_none rfl, filterMap_function?]

theorem dispatches (item : Item) (node : Path) (routes : List Route) :
    item.Dispatches node routes (item.dispatch node routes).layer where
  visitorMethods := by
    rw [Dispatch.layer, functions_visitorTrait, List.map_append, List.map_map]
    rfl
  folderMethods := by
    rw [Dispatch.layer, functions_folderTrait, List.map_append, List.map_map]
    rfl
  visitorMembers := by
    rw [Dispatch.layer, functions_visitorTrait]
    simp [Dispatch.visitorTrait]
  folderMembers := by
    rw [Dispatch.layer, functions_folderTrait]
    exact ⟨_, by simp only [Dispatch.folderTrait, List.map_append, List.map_map, List.map_cons,
      List.map_nil]; rfl⟩
  conversions := by
    rw [Dispatch.layer, Dispatch.conversions, List.map_flatMap]
    rfl
  members := rfl
  shapes := rfl
  shapeName := rfl
  forwards f hf := by
    simp only [List.mem_cons, List.not_mem_nil, or_false] at hf
    rcases hf with rfl | rfl | rfl | rfl | rfl <;> rfl
  dispatch := rfl
  dispatchWith := rfl

/-- Nothing comes of a well-formed enumeration but its code, or the first method that would have no name. -/
theorem dispatchCode?_of_isDispatch {item : Item} {node : Path} {routes : List Route}
    (h : item.IsDispatch node routes) : dispatchCode? item =
      match (routes.map Route.method).find? fun m => !Ident.isWord m.toList with
      | some name => .error (.invalidName name)
      | none => .ok (render (item.dispatch node routes).layer.blocks) := by
  have hd : Dispatch.ofItem? item = .ok (item.dispatch node routes) :=
    Dispatch.ofItem?_eq_ok.mpr ⟨node, routes, h, rfl⟩
  rw [dispatchCode?, hd]
  rfl

theorem dispatchCode?_eq_ok {item : Item} {code : String} : dispatchCode? item = .ok code ↔
    ∃ node routes, item.IsDispatch node routes ∧ (∀ r ∈ routes, Ident.isWord r.method.toList = true) ∧
      code = render (item.dispatch node routes).layer.blocks := by
  have hplain : ∀ routes : List Route, (routes.map Route.method).find? (fun m => !Ident.isWord m.toList) =
      none ↔ ∀ r ∈ routes, Ident.isWord r.method.toList = true := fun routes => by simp
  constructor
  · intro h
    cases hd : Dispatch.ofItem? item with
    | error e =>
      rw [dispatchCode?, hd] at h
      cases h
    | ok d =>
      obtain ⟨node, routes, hitem, rfl⟩ := Dispatch.ofItem?_eq_ok.mp hd
      rw [dispatchCode?_of_isDispatch hitem] at h
      split at h
      · cases h
      · next hnone =>
        cases h
        exact ⟨node, routes, hitem, (hplain routes).mp hnone, rfl⟩
  · rintro ⟨node, routes, hitem, hall, rfl⟩
    rw [dispatchCode?_of_isDispatch hitem, (hplain routes).mpr hall]

/-! One variant more. -/

/-- A variant more has a route more, at the end. -/
theorem isDispatch_append {item : Item} {node : Path} {variants : List Variant} {v : Variant}
    {all : List Route} (hform : item.form = .enum (variants ++ [v])) :
    item.IsDispatch node all ↔ ∃ routes r, all = routes ++ [r] ∧
      ({ item with form := .enum variants } : Item).IsDispatch node routes ∧
      r.variant = v.name ∧ v.fields = .unnamed [r.type] := by
  constructor
  · rintro ⟨hparens, hsettings, hnode, _, hform', hall⟩
    obtain rfl : variants ++ [v] = _ := Form.enum.inj (hform.symm.trans hform')
    obtain ⟨routes, r, rfl, hroutes, hr⟩ := forall₂_append_singleton.mp hall
    exact ⟨routes, r, rfl, ⟨hparens, hsettings, hnode, variants, rfl, hroutes⟩, hr⟩
  · rintro ⟨routes, r, rfl, ⟨hparens, hsettings, hnode, _, hform', hroutes⟩, hr⟩
    cases hform'
    exact ⟨hparens, hsettings, hnode, _, hform, forall₂_append_singleton.mpr ⟨routes, r, rfl, hroutes, hr⟩⟩

/-- A layer has all that another has, and one entry more at the end of every list. -/
structure Layer.Grows (l l' : Layer) : Prop where
  visitor : ∃ methods m fallback, l.visitor.functions = methods ++ [fallback] ∧
    l'.visitor.functions = methods ++ [m, fallback]
  folder : ∃ methods m fallback, l.folder.functions = methods ++ [fallback] ∧
    l'.folder.functions = methods ++ [m, fallback]
  conversions : ∃ into back, l'.conversions = l.conversions ++ [into, back]
  shapes : ∃ entries e, l.payload.value? "SHAPES" = some ("&" :: brackets (separated entries)) ∧
    l'.payload.value? "SHAPES" = some ("&" :: brackets (separated (entries ++ [e])))
  choices : ∀ f ∈ ["kind", "shape_name", "slot", "for_each_slot", "validate", "describe", "dispatch",
      "dispatch_with"], ∃ arms arm, l.payload.body? f = some (.choice ["self"] arms) ∧
    l'.payload.body? f = some (.choice ["self"] (arms ++ [arm]))

theorem grows (item : Item) (node : Path) (routes : List Route) (r : Route) :
    (item.dispatch node routes).layer.Grows (item.dispatch node (routes ++ [r])).layer where
  visitor := by
    simp only [Dispatch.layer, functions_visitorTrait, Item.dispatch, List.map_append, List.append_assoc]
    exact ⟨_, _, _, rfl, rfl⟩
  folder := by
    simp only [Dispatch.layer, functions_folderTrait, Item.dispatch, List.map_append, List.append_assoc]
    exact ⟨_, _, _, rfl, rfl⟩
  conversions := by
    simp only [Dispatch.layer, Dispatch.conversions, Item.dispatch, List.flatMap_append]
    exact ⟨_, _, rfl⟩
  shapes := ⟨routes.map Route.descriptor, r.descriptor, rfl, by
    rw [← List.map_singleton, ← List.map_append]
    rfl⟩
  choices f hf := by
    have hchoose : ∃ binder value, ∀ routes,
        (item.dispatch node routes).layer.payload.body? f = some (casesFor routes binder value) := by
      simp only [List.mem_cons, List.not_mem_nil, or_false] at hf
      rcases hf with rfl | rfl | rfl | rfl | rfl | rfl | rfl | rfl <;> exact ⟨_, _, fun _ => rfl⟩
    obtain ⟨binder, value, h⟩ := hchoose
    exact ⟨_, _, h routes, by rw [h, casesFor, List.map_append]; rfl⟩

/-- A layer is made of every well-formed enumeration whose methods all have a name, and of nothing else: where
one has none, it is the first of them that is reported. The layer has one of everything for every variant, in
order, and for one variant more it has one entry more at the end of every list. A variant whose name is raw has
no method, although the name can be written, and all others have one. -/
theorem dispatchCode_exact (item : Item) :
    ((∃ code, dispatchCode? item = .ok code) ↔ ∃ node routes, item.IsDispatch node routes ∧
        ∀ r ∈ routes, Ident.isWord r.method.toList = true) ∧
      (∀ node routes, item.IsDispatch node routes →
        (∀ code, dispatchCode? item = .ok code →
          ∃ l : Layer, code = render l.blocks ∧ item.Dispatches node routes l) ∧
        ∀ name, dispatchCode? item = .error (.invalidName name) ↔
          (routes.map Route.method).find? (fun m => !Ident.isWord m.toList) = some name) ∧
      (∀ variants v, item.form = .enum (variants ++ [v]) → ∀ code, dispatchCode? item = .ok code →
        ∃ l l' : Layer, dispatchCode? { item with form := .enum variants } = .ok (render l.blocks) ∧
          code = render l'.blocks ∧ l.Grows l' ∧
          ∃ node routes r, r.variant = v.name ∧ v.fields = .unnamed [r.type] ∧
            item.Dispatches node routes l ∧ item.Dispatches node (routes ++ [r]) l') ∧
      ∀ text i, Ident.ofWord? text = some i → ∀ r : Route, r.variant = i →
        (Ident.isWord r.method.toList = true ↔ Ident.rawWord? i.text.toList = none) := by
  refine ⟨?_, fun node routes h => ⟨fun code hcode => ?_, fun name => ?_⟩, fun variants v hform code hcode => ?_,
    ?_⟩
  · simp only [dispatchCode?_eq_ok]
    constructor
    · rintro ⟨_, node, routes, h, hall, -⟩
      exact ⟨node, routes, h, hall⟩
    · rintro ⟨node, routes, h, hall⟩
      exact ⟨_, node, routes, h, hall, rfl⟩
  · rw [dispatchCode?_of_isDispatch h] at hcode
    split at hcode
    · cases hcode
    · cases hcode
      exact ⟨_, rfl, dispatches item node routes⟩
  · rw [dispatchCode?_of_isDispatch h]
    split
    · next m hm => simp [hm]
    · next hnone => simp [hnone]
  · obtain ⟨node, _, h, hall, rfl⟩ := dispatchCode?_eq_ok.mp hcode
    obtain ⟨routes, r, rfl, hbefore, hr⟩ := (isDispatch_append hform).mp h
    have hall' := fun r' hr' => hall r' (List.mem_append_left _ hr')
    exact ⟨_, _, dispatchCode?_eq_ok.mpr ⟨node, routes, hbefore, hall', rfl⟩, rfl, grows item node routes r,
      node, routes, r, hr.1, hr.2, dispatches item node routes, dispatches item node _⟩
  · rintro text i hi r rfl
    exact Ident.isWord_visit_iff hi

/-- An enumeration with one variant, whose name is spelled raw. -/
def rawEnum : Item where
  name := ⟨"E"⟩
  generics := []
  annotations := [⟨.word "visitor", some [.value (.word "node") (.word "N")]⟩]
  form := .enum [⟨⟨"r#Type"⟩, .unnamed [.path false [⟨"T"⟩] none]⟩]

/-- It is well-formed, and its variant has a name that can be written, but no code is made of it. -/
theorem dispatchCode_not_raw : (∃ node routes, rawEnum.IsDispatch node routes) ∧
    Ident.ofString? "r#Type" = some ⟨"r#Type"⟩ ∧
      dispatchCode? rawEnum = .error (.invalidName "visit_r#_type") := by
  have hgiven : given .visitor rawEnum.annotations = [.value (.word "node") (.word "N")] := rfl
  have h : rawEnum.IsDispatch (.word "N") [⟨⟨"r#Type"⟩, .path false [⟨"T"⟩] none⟩] := by
    refine ⟨by simp [Parenthesized, rawEnum], fun s hs => ?_, rfl, _, rfl, .cons ⟨rfl, rfl⟩ .nil⟩
    rw [hgiven] at hs
    rw [List.mem_singleton.mp hs]
    exact .inr ⟨.word "N", rfl, by decide⟩
  refine ⟨⟨_, _, h⟩, by decide +kernel, ?_⟩
  have hname : "visit_" ++ Text.snakeCase "r#Type" = "visit_r#_type" := by decide +kernel
  have hword : Ident.isWord "visit_r#_type".toList = false := by decide +kernel
  rw [dispatchCode?_of_isDispatch h]
  simp only [List.map_cons, List.map_nil, Route.method, List.find?_cons, hname, hword, Bool.not_false]

end BoundTree.Derive
