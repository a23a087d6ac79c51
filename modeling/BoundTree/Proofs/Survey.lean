import BoundTree.Proofs.Tour

/-!
Accounts of what is as described: folders that go down child by child, the dump, and the check of the
tree. Main statements: the dump and the check give what can be read off the description, whatever was
read before; and no folder that does not fail by itself fails.
-/
namespace BoundTree.Session

open Procedure Chart

variable {α β σ : Type} {m : Chart} {s : Session}

/-! Folders. -/

/-- What a procedure does at every operation that is described by one of some descriptions. -/
def Handles (visit : NodeId → α → Procedure β) (among : Description → Prop)
    (P : Description → α → β → NameTable → Prop) : Prop :=
  ∀ {n d s m} (a : α), m.Holds s → m.running = none → m.node n = some d → among d →
    Yields (visit n a) s m fun b t _ => P d a b t.names

/-- What the handlers of a folder give, if what they go on to does. -/
def Folder.Gives (f : Folder α β) (P : Description → α → β → NameTable → Prop) : Prop :=
  ∀ {visit n node d s m} (a : α), m.Holds s → m.running = none → m.node n = some d →
    s.store.node? n = some node → Handles visit (· ∈ d.children) P →
    Yields (f.handler node.shape visit n node a) s m fun b t _ => P d a b t.names

theorem yields_acceptWithin {f : Folder α β} {P : Description → α → β → NameTable → Prop}
    (hf : f.Gives P) (depth : Nat) : Handles (f.acceptWithin depth) (·.size ≤ depth) P := by
  induction depth with
  | zero =>
    intro n d s m a h hr hn hsize
    rw [d.size_eq] at hsize
    omega
  | succ depth ih =>
    intro n d s m a h hr hn hsize
    obtain ⟨node, hnode, -⟩ := h.fits.node hn
    have hbelow : Handles (f.acceptWithin depth) (· ∈ d.children) P := by
      intro k e t m' b h' hr' hk he
      have hlt := Description.size_lt he
      exact ih b h' hr' hk (by omega)
    have hgiven := hf a h hr hn hnode hbelow
    rw [Folder.acceptWithin]
    refine .skip h (read_apply s) rfl (.refl _) rfl fun h' => ?_
    rw [hnode]
    exact .skip h' (ofOption_some_apply _ node s) rfl (.refl _) rfl fun _ => hgiven

/-- A folder has enough depth for all that is described. -/
theorem yields_accept {f : Folder α β} {P : Description → α → β → NameTable → Prop} (hf : f.Gives P)
    {n : NodeId} {d : Description} (a : α) (h : m.Holds s) (hr : m.running = none)
    (hn : m.node n = some d) : Yields (f.accept n a) s m fun b t _ => P d a b t.names := by
  have hsize := size_le_budget h hr hn
  refine .skip h (read_apply s) rfl (.refl _) rfl fun h' => ?_
  exact yields_acceptWithin hf _ a h' hr hn (by omega)

/-! Visitors. -/

theorem yields_foldlM {visit : NodeId → σ → Procedure σ} {ops : List NodeId} {ds : List Description}
    (hv : Handles visit (· ∈ ds) fun _ _ _ _ => True) (a : σ) (h : m.Holds s) (hr : m.running = none)
    (hops : ops.map m.node = ds.map some) :
    Yields (ops.foldlM (fun a child => visit child a) a) s m fun _ _ _ => True := by
  induction ops generalizing ds s m a with
  | nil => exact .pure h trivial
  | cons n ops ih =>
    cases ds with
    | nil => simp at hops
    | cons d ds =>
      obtain ⟨hn, hrest⟩ := List.cons.inj hops
      rw [List.foldlM_cons]
      refine (hv a h hr hn List.mem_cons_self).bind fun hholds hgrows _ => ?_
      refine ih (fun b h' hr' hk he => hv b h' hr' hk (List.mem_cons_of_mem _ he)) _ hholds
        (hgrows.running.trans hr) (map_eq_of_le hrest hgrows.node)

theorem yields_threadCells {visit : NodeId → σ → Procedure σ} {cells : List CellId}
    {dss : List (List Description)} (hv : Handles visit (· ∈ dss.flatten) fun _ _ _ _ => True) (a : σ)
    (h : m.Holds s) (hr : m.running = none) (hcells : cells.map m.cell = dss.map some) :
    Yields (threadCells visit cells a) s m fun _ _ _ => True := by
  induction cells generalizing dss s m a with
  | nil => exact .pure h trivial
  | cons c cells ih =>
    cases dss with
    | nil => simp at hcells
    | cons ds dss =>
      obtain ⟨hc, hrest⟩ := List.cons.inj hcells
      rw [threadCells]
      refine (yields_operations h hr hc).bind fun hholds hgrows hops => ?_
      have hhead : Handles visit (· ∈ ds) fun _ _ _ _ => True := fun b h' hr' hk he =>
        hv b h' hr' hk (List.mem_append_left _ he)
      refine (yields_foldlM hhead a hholds (hgrows.running.trans hr) hops.2.1).bind
        fun hholds' hgrows' _ => ?_
      have hgrows₂ := hgrows.trans hgrows'
      exact ih (fun b h' hr' hk he => hv b h' hr' hk (List.mem_append_right _ he)) _ hholds'
        (hgrows₂.running.trans hr) (map_eq_of_le hrest hgrows₂.cell)

theorem yields_walkChildren {visit : NodeId → σ → Procedure σ} {n : NodeId} {d : Description}
    (hv : Handles visit (· ∈ d.children) fun _ _ _ _ => True) (a : σ) (h : m.Holds s)
    (hr : m.running = none) (hn : m.node n = some d) :
    Yields (walkChildren visit n a) s m fun _ _ _ => True := by
  obtain ⟨cells, hrun, hcells, -⟩ := h.fits.childCells hn
  exact .skip h hrun rfl (.refl _) rfl fun h' => yields_threadCells hv a h' hr hcells

theorem gives_tracing (pruned : List String) : (tracing pruned).Gives fun _ _ _ _ => True := by
  intro visit n node d s m a h hr hn hnode hv
  have hhandler : (tracing pruned).handler node.shape visit n node a =
      if node.shape.visitMethod ∈ pruned then pure (a ++ [⟨node.shape, node.kind⟩])
      else walkChildren visit n (a ++ [⟨node.shape, node.kind⟩]) := rfl
  rw [hhandler]
  split
  · exact .pure h trivial
  · exact yields_walkChildren hv _ h hr hn

theorem gives_noting : noting.Gives fun _ _ _ _ => True := by
  intro visit n node d s m a h hr hn hnode hv
  have hhandler : ∃ notes, noting.handler node.shape visit n node a = walkChildren visit n notes := by
    unfold Folder.handler noting
    dsimp only
    split <;> exact ⟨_, rfl⟩
  obtain ⟨notes, hnotes⟩ := hhandler
  rw [hnotes]
  exact yields_walkChildren hv notes h hr hn

/-! The dump. -/

/-- What is found of each of some operations, when it depends on the names only. -/
theorem yields_mapM {visit : NodeId → Procedure β} {f : NameTable → Description → β}
    {ops : List NodeId} {ds : List Description}
    (hv : ∀ {n d s m}, m.Holds s → m.running = none → m.node n = some d → d ∈ ds →
      Yields (visit n) s m fun b t _ => ∀ later, t.names.Le later → b = f later d)
    (h : m.Holds s) (hr : m.running = none) (hops : ops.map m.node = ds.map some) :
    Yields (ops.mapM visit) s m fun bs t _ => ∀ later, t.names.Le later → bs = ds.map (f later) := by
  induction ops generalizing ds s m with
  | nil =>
    obtain rfl : ds = [] := by simpa using hops.symm
    exact .pure h fun _ _ => rfl
  | cons n ops ih =>
    cases ds with
    | nil => simp at hops
    | cons d ds =>
      obtain ⟨hn, hrest⟩ := List.cons.inj hops
      rw [List.mapM_cons]
      refine (hv h hr hn List.mem_cons_self).bind fun hholds hgrows hhead => ?_
      refine (ih (fun h' hr' hk he => hv h' hr' hk (List.mem_cons_of_mem _ he)) hholds
        (hgrows.running.trans hr) (map_eq_of_le hrest hgrows.node)).bind fun hholds' hgrows' htail =>
          .pure hholds' fun later hle => ?_
      rw [List.map_cons, hhead later (hgrows'.names.trans hle), htail later hle]

theorem yields_dumpSlots {visit : NodeId → Nat → Procedure (List Line)} {cells : List (String × CellId)}
    {slots : List (String × List Description)} (level : Nat)
    (hv : Handles visit (fun d => ∃ x ∈ slots, d ∈ x.2) fun d level ls names =>
      ∀ later, names.Le later → ls = d.lines later level)
    (h : m.Holds s) (hr : m.running = none)
    (hcells : cells.map (fun x => (x.1, m.cell x.2)) = slots.map fun x => (x.1, some x.2)) :
    Yields (dumpSlots visit level cells) s m fun ls t _ => ∀ later, t.names.Le later →
      ls = slots.flatMap fun x => ⟨level, slotText x.1 x.2.isEmpty⟩ ::
        x.2.flatMap (·.lines later (level + 1)) := by
  induction cells generalizing slots s m with
  | nil =>
    obtain rfl : slots = [] := by simpa using hcells.symm
    exact .pure h fun _ _ => rfl
  | cons x cells ih =>
    obtain ⟨name, c⟩ := x
    cases slots with
    | nil => simp at hcells
    | cons slot slots =>
      obtain ⟨hhead, hrest⟩ := List.cons.inj hcells
      obtain ⟨rfl, hc⟩ := Prod.mk.inj hhead
      rw [dumpSlots]
      refine (yields_operations h hr hc).bind fun {ops t m₁} hholds hgrows hops => ?_
      have hvalues : Yields (ops.mapM (visit · (level + 1))) t m₁ fun blocks u _ =>
          ∀ later, u.names.Le later → blocks = slot.2.map (·.lines later (level + 1)) :=
        yields_mapM (fun h' hr' hk he => hv _ h' hr' hk ⟨slot, List.mem_cons_self, he⟩) hholds
          (hgrows.running.trans hr) hops.2.1
      refine hvalues.bind fun hholds' hgrows' hblocks => ?_
      have hgrows₂ := hgrows.trans hgrows'
      refine (ih (fun b h' hr' hk ⟨x, hx, he⟩ => hv b h' hr' hk ⟨x, List.mem_cons_of_mem _ hx, he⟩)
        hholds' (hgrows₂.running.trans hr) (map_cell_later hrest hgrows₂)).bind
          fun hholds₃ hgrows₃ htail => .pure hholds₃ fun later hle => ?_
      have hempty : ops.isEmpty = slot.2.isEmpty := by
        have hlength := congrArg List.length hops.2.1
        simp only [List.length_map] at hlength
        cases ops <;> cases hs : slot.2 <;> simp_all
      rw [List.flatMap_cons, ← htail later hle, hblocks later (hgrows₃.names.trans hle), hempty]
      rfl

theorem gives_dumping : dumping.Gives fun d level ls names =>
    ∀ later, names.Le later → ls = d.lines later level := by
  intro visit n node d s m level h hr hn hnode hv
  obtain ⟨cells, hrun, hcells⟩ := namedChildCells_ok h.fits hn
  obtain ⟨node', hnode', hd, -⟩ := h.fits.node hn
  cases hnode.symm.trans hnode'
  have hslots : Handles visit (fun e => ∃ x ∈ d.namedSlots, e ∈ x.2) fun d level ls names =>
      ∀ later, names.Le later → ls = d.lines later level := fun b h' hr' hk ⟨_, hx, he⟩ =>
    hv b h' hr' hk (Description.mem_children_of_namedSlots hx he)
  have hhandler : dumping.handler node.shape visit n node level = namedChildCells n >>= fun cells =>
      dumpSlots visit (level + 1) cells >>= fun ls => pure (⟨level, nodeText node⟩ :: ls) := rfl
  rw [hhandler]
  refine .skip h hrun rfl (.refl _) rfl fun h' => ?_
  refine (yields_dumpSlots (level + 1) hslots h' hr hcells).bind fun hholds hgrows hls =>
    .pure hholds fun later hle => ?_
  rw [hls later hle, d.lines_eq, hd.text later (hgrows.names.trans hle)]

/-- A dump shows what is described. -/
theorem yields_dump {n : NodeId} {d : Description} (h : m.Holds s) (hr : m.running = none)
    (hn : m.node n = some d) :
    Yields (dump n) s m fun text t _ => text = d.dumpText t.names := by
  refine (yields_accept gives_dumping 0 h hr hn).bind fun hholds _ hls => .pure hholds ?_
  rw [hls _ (.refl _)]
  rfl

/-! The check of the tree. -/

/-- A child that was not reached before. -/
theorem Sweep.visit_attached {w : Sweep} {owner child : NodeId} (h : child ∉ w.seen) :
    w.visit s owner .attached child = ⟨child :: w.seen, child :: w.pending,
      (s.checkLink owner .attached child).toList ++ w.found⟩ := by
  unfold Sweep.visit Sweep.reach
  cases s.checkLink owner .attached child <;> simp [h]

theorem Sweep.visit_detached {w : Sweep} {owner child : NodeId}
    (h : s.checkLink owner .detached child = none) : w.visit s owner .detached child = w := by
  unfold Sweep.visit
  rw [h]

/-- A slot with children that were not reached before. -/
theorem foldl_visit_attached {owner : NodeId} {d : Description} {ops : List NodeId}
    {ds : List Description} (w : Sweep) (hops : ops.map m.node = ds.map some) (hnodup : ops.Nodup)
    (hnew : ∀ n ∈ ops, n ∉ w.seen)
    (hcheck : ∀ n ∈ ops, ∀ e, m.node n = some e → s.checkLink owner .attached n = d.mismatch? e) :
    ops.foldl (fun w child => w.visit s owner .attached child) w = ⟨ops.reverse ++ w.seen,
      ops.reverse ++ w.pending, (ds.filterMap d.mismatch?).reverse ++ w.found⟩ := by
  induction ops generalizing ds w with
  | nil =>
    obtain rfl : ds = [] := by simpa using hops.symm
    rfl
  | cons n ops ih =>
    cases ds with
    | nil => simp at hops
    | cons e ds =>
      obtain ⟨hn, hrest⟩ := List.cons.inj hops
      obtain ⟨hnot, hnodup⟩ := List.nodup_cons.mp hnodup
      have hnew' : ∀ k ∈ ops, k ∉ n :: w.seen := by
        intro k hk hmem
        rcases List.mem_cons.mp hmem with rfl | hmem
        · exact hnot hk
        · exact hnew k (List.mem_cons_of_mem _ hk) hmem
      rw [List.foldl_cons, Sweep.visit_attached (hnew n List.mem_cons_self),
        ih _ hrest hnodup hnew' fun k hk => hcheck k (List.mem_cons_of_mem _ hk),
        hcheck n List.mem_cons_self e hn]
      cases hv : d.mismatch? e <;> simp [hv]

/-- One slot of an operation: children are reached, and values of a detached slot are passed over. -/
theorem foldl_visit {n : NodeId} {d : Description} {l : Linkage} {c : CellId} {ds : List Description}
    {ops : List NodeId} (w : Sweep) (h : m.Holds s) (hn : m.node n = some d) (hc : m.cell c = some ds)
    (howner : s.store.owner? c = some ⟨n, l⟩) (ho : s.store.published? c = some ops)
    (hseen : l = .attached → ∀ k ∈ w.seen, m.place k ≠ some c) :
    ∃ below, m.Lists (if l = .attached then ds else []) [c] below ∧
      (∀ k ∈ below, s.store.link? k = some n) ∧
      ops.foldl (fun w child => w.visit s n l child) w = ⟨below.reverse ++ w.seen,
        below.reverse ++ w.pending,
        ((if l = .attached then ds else []).filterMap d.mismatch?).reverse ++ w.found⟩ := by
  obtain ⟨hnodes, hnodup, hplace⟩ := h.fits.filled hc ho
  have hcheck : ∀ k ∈ ops, ∀ e, m.node k = some e →
      s.checkLink n l k = if l = .attached then d.mismatch? e else none := by
    intro k hk e he
    obtain ⟨d', e', hd', he', -, hlink⟩ := h.fits.checkLink_owned (by simp [hc]) howner ho hk
    cases hn.symm.trans hd'
    cases he.symm.trans he'
    exact hlink
  cases l with
  | attached =>
    refine ⟨ops, ⟨hnodes, hnodup, fun k hk => ⟨c, List.mem_singleton_self c, hplace k hk⟩⟩, ?_, ?_⟩
    · intro k hk
      obtain ⟨e, -, he⟩ := exists_of_map_eq hnodes hk
      rw [h.fits.link he, hplace k hk, Option.bind_some, Store.adopter?, howner]
      rfl
    · have hnew : ∀ k ∈ ops, k ∉ w.seen := fun k hk hmem => hseen rfl k hmem (hplace k hk)
      exact foldl_visit_attached w hnodes hnodup hnew hcheck
  | detached =>
    refine ⟨[], .nil m [c], by simp, ?_⟩
    have hpass : ∀ k ∈ ops, w.visit s n .detached k = w := by
      intro k hk
      obtain ⟨e, -, he⟩ := exists_of_map_eq hnodes hk
      exact Sweep.visit_detached (hcheck k hk e he)
    clear hnodes hnodup hplace hcheck ho
    induction ops with
    | nil => rfl
    | cons k ops ih =>
      rw [List.foldl_cons, hpass k List.mem_cons_self]
      exact ih fun k hk => hpass k (List.mem_cons_of_mem _ hk)

/-- The slots of one operation, none of whose children was reached before. -/
theorem yields_sweepSlots {n : NodeId} {d : Description} {cells : List (Linkage × CellId)}
    {slots : List (SlotField × List Description)} (w : Sweep) (h : m.Holds s) (hr : m.running = none)
    (hn : m.node n = some d)
    (hcells : cells.map (fun x => (x.1, m.cell x.2)) = slots.map fun x => (x.1.linkage, some x.2))
    (howner : ∀ x ∈ cells, s.store.owner? x.2 = some ⟨n, x.1⟩) (hnodup : (cells.map (·.2)).Nodup)
    (hseen : ∀ k ∈ w.seen, (m.node k).isSome ∧
      ∀ x ∈ cells, x.1 = .attached → m.place k ≠ some x.2) :
    Yields (sweepSlots n cells w) s m fun w' t m' => ∃ below,
      m'.Lists (slots.flatMap fun x => if x.1.linkage = .attached then x.2 else [])
        (cells.map (·.2)) below ∧
      (∀ k ∈ below, t.store.link? k = some n) ∧
      w' = ⟨below.reverse ++ w.seen, below.reverse ++ w.pending,
        ((slots.flatMap fun x => if x.1.linkage = .attached then x.2 else []).filterMap
          d.mismatch?).reverse ++ w.found⟩ := by
  induction cells generalizing slots s m w with
  | nil =>
    obtain rfl : slots = [] := by simpa using hcells.symm
    exact .pure h ⟨[], .nil m [], by simp, rfl⟩
  | cons x cells ih =>
    obtain ⟨l, c⟩ := x
    cases slots with
    | nil => simp at hcells
    | cons slot slots =>
      obtain ⟨field, ds⟩ := slot
      obtain ⟨hhead, hrest⟩ := List.cons.inj hcells
      obtain ⟨rfl, hc⟩ := Prod.mk.inj hhead
      obtain ⟨hnot, hnodup⟩ := List.nodup_cons.mp hnodup
      rw [sweepSlots]
      refine (yields_operations h hr hc).bind fun {ops t m₁} hholds hgrows hops => ?_
      obtain ⟨hpublished, hnodes, hopsNodup, hplace⟩ := hops
      refine .skip hholds (read_apply t) rfl (.refl _) rfl fun hholds => ?_
      have hseen' : field.linkage = .attached → ∀ k ∈ w.seen, m₁.place k ≠ some c := by
        intro hl k hk
        obtain ⟨hsome, hplaces⟩ := hseen k hk
        obtain ⟨e, he⟩ := Option.isSome_iff_exists.mp hsome
        rw [hgrows.place he]
        exact hplaces _ List.mem_cons_self hl
      obtain ⟨below, hbelow, hlinked, hfold⟩ := foldl_visit w hholds (hgrows.node hn) (hgrows.cell hc)
        ((hgrows.owner hc).trans (howner _ List.mem_cons_self)) hpublished hseen'
      rw [hfold]
      have howner' : ∀ x ∈ cells, t.store.owner? x.2 = some ⟨n, x.1⟩ := by
        intro x hx
        obtain ⟨_, hds⟩ := exists_cell hrest hx
        exact (hgrows.owner hds).trans (howner x (List.mem_cons_of_mem _ hx))
      have hseen₁ : ∀ k ∈ below.reverse ++ w.seen, (m₁.node k).isSome ∧
          ∀ x ∈ cells, x.1 = .attached → m₁.place k ≠ some x.2 := by
        intro k hk
        rcases List.mem_append.mp hk with hk | hk
        · obtain ⟨e, -, he⟩ := exists_of_map_eq hbelow.nodes (List.mem_reverse.mp hk)
          obtain ⟨_, hmem, hkc⟩ := hbelow.placed k (List.mem_reverse.mp hk)
          obtain rfl := List.mem_singleton.mp hmem
          refine ⟨by simp [he], fun x hx _ hkx => hnot ?_⟩
          cases hkc.symm.trans hkx
          exact List.mem_map.mpr ⟨x, hx, rfl⟩
        · obtain ⟨hsome, hplaces⟩ := hseen k hk
          obtain ⟨e, he⟩ := Option.isSome_iff_exists.mp hsome
          rw [hgrows.place he]
          exact ⟨by simp [hgrows.node he], fun x hx => hplaces x (List.mem_cons_of_mem _ hx)⟩
      refine (ih _ hholds (hgrows.running.trans hr) (hgrows.node hn) (map_cell_later hrest hgrows)
        howner' hnodup hseen₁).mono fun hholds' hgrows' ⟨more, hmore, hlinked', hw⟩ => ?_
      refine ⟨below ++ more, (hbelow.grows hgrows').append hmore hnot, fun k hk => ?_, ?_⟩
      · rcases List.mem_append.mp hk with hk | hk
        · obtain ⟨e, -, he⟩ := exists_of_map_eq hbelow.nodes hk
          exact (hgrows'.link? hholds.fits hholds'.fits he).trans (hlinked k hk)
        · exact hlinked' k hk
      · rw [hw]
        simp

/-- The sweep comes to every operation once, and to what is wrong with the models. -/
theorem yields_sweep {root : NodeId} {d : Description} {done : List NodeId} {ds : List Description}
    (steps : Nat) (w : Sweep) (h : m.Holds s) (hr : m.running = none)
    (htour : m.Tour s root d done w.pending) (hseen : w.seen ⊆ done ++ w.pending)
    (hpending : w.pending.map m.node = ds.map some) (hsteps : (ds.map Description.size).sum < steps) :
    Yields (sweep steps w) s m fun w' _ _ =>
      w'.found.reverse = w.found.reverse ++ ds.flatMap Description.violations := by
  induction steps generalizing w done ds s m with
  | zero => omega
  | succ steps ih =>
    rw [sweep]
    split
    · next hnil =>
      rw [hnil] at hpending
      obtain rfl : ds = [] := by simpa using hpending.symm
      exact .pure h (by simp)
    · next n pending hcons =>
      rw [hcons] at hpending htour hseen
      cases ds with
      | nil => simp at hpending
      | cons e ds =>
        obtain ⟨hn, hrest⟩ := List.cons.inj hpending
        obtain ⟨node, hnode, hd, hcells, hnodup, howner⟩ := h.fits.node hn
        have hplaces : ∀ k ∈ w.seen, (m.node k).isSome ∧
            ∀ x ∈ node.linkedCells, x.1 = .attached → m.place k ≠ some x.2 := by
          intro k hk
          obtain ⟨c, hc, -⟩ := htour.size k (hseen hk)
          refine ⟨by simp [hc], fun x hx hl hplace => htour.unlinked h (hseen hk) ?_⟩
          rw [h.fits.link hc, hplace, Option.bind_some, Store.adopter?, howner x hx, hl]
          rfl
        refine .skip h (read_apply s) rfl (.refl _) rfl fun h' => ?_
        rw [hnode]
        refine (yields_sweepSlots { w with pending } h' hr hn (hd.linkedCells hcells) howner
          (node.linkedCells_sublist.nodup hnodup) hplaces).bind fun {w' t m₁} hholds hgrows hw => ?_
        obtain ⟨below, hbelow, hlinked, hw⟩ := hw
        have hattached : below.map m₁.node = e.attached.map some := hbelow.nodes
        have hnext : m₁.Tour t root d (n :: done) (below.reverse ++ pending) := by
          refine (htour.later hgrows h.fits hholds.fits).next hholds
            (List.nodup_reverse.mpr hbelow.nodup) (fun k hk => ?_)
            fun k hk => hlinked k (List.mem_reverse.mp hk)
          exact isSome_of_map_eq hattached (List.mem_reverse.mp hk)
        have hpending' : (below.reverse ++ pending).map m₁.node =
            (e.attached.reverse ++ ds).map some := by
          rw [List.map_append, List.map_append, List.map_reverse, List.map_reverse, hattached,
            map_eq_of_le hrest hgrows.node]
        have hsum : ((e.attached.reverse ++ ds).map Description.size).sum < steps := by
          have hperm := ((h.valid.node hn).attached_perm.map Description.size).sum_eq
          rw [List.map_cons, List.sum_cons, e.size_eq] at hsteps
          rw [List.map_append, List.sum_append, List.map_reverse, List.sum_reverse, hperm]
          omega
        subst hw
        refine (ih _ hholds (hgrows.running.trans hr) hnext ?_ hpending' hsum).mono
          fun _ _ hfound => ?_
        · intro k hk
          have hk' : k ∈ below ∨ k ∈ w.seen := by simpa using hk
          rcases hk' with hk | hk
          · simp [hk]
          · have hold := hseen hk
            simp only [List.mem_append, List.mem_cons] at hold ⊢
            tauto
        · have hviolations := e.violations_eq
          simp only [hfound, List.reverse_append, List.reverse_reverse, List.flatMap_append,
            List.flatMap_cons, hviolations, List.append_assoc]
          rfl

/-- The check of the tree finds what is described. -/
theorem yields_verifyTree {n : NodeId} {d : Description} (h : m.Holds s) (hr : m.running = none)
    (hn : m.node n = some d) :
    Yields (verifyTree n) s m fun found _ _ => found = d.violations := by
  have hsize := size_le_budget h hr hn
  have hsum : ([d].map Description.size).sum < s.store.budget + 2 := by
    rw [List.map_singleton, List.sum_singleton]
    omega
  rw [verifyTree]
  refine .skip h (read_apply s) rfl (.refl _) rfl fun h' => ?_
  have hpending : [n].map m.node = [d].map some := by simp [hn]
  refine (yields_sweep (s.store.budget + 2) ⟨[n], [n], []⟩ h' hr (.start hn) (by simp) hpending
    hsum).bind fun {w t m'} hholds hgrows hfound => ?_
  rw [List.flatMap_singleton] at hfound
  have hfound' : w.found.reverse = d.violations := hfound
  dsimp only
  rw [hfound']
  split
  · refine .skip hholds (read_apply t) rfl (.refl _) rfl fun hholds' => ?_
    rw [hholds.fits.linkFacts? (hgrows.node hn)]
    exact .skip hholds' (emit_apply _ t) rfl (.refl _) rfl fun h'' => .pure h'' rfl
  · exact .pure hholds rfl

end BoundTree.Session
