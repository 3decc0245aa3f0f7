import AlertFilter.Json.Decoder
import AlertFilter.Proofs.CanonicalForm

/-!
# Fields of a record

A record in memory is read member by member, and each member fills the slot of its field.
The slots do not depend on each other, so that the record is read if and only if every
field is, and a field is read from the members with its names alone.
-/

namespace AlertFilter.Json

variable {α β σ : Type}

/-- In a chain of readings each one has succeeded when the whole has. -/
lemma bind_eq_ok_iff {ε : Type} {x : Except ε α} {f : α → Except ε β} {b : β} :
    (x >>= f) = .ok b ↔ ∃ a, x = .ok a ∧ f a = .ok b := by
  cases x with
  | error e => simp [bind, Except.bind]
  | ok a => simp [bind, Except.bind]

/-- A value in memory is read as `a`, wherever it is kept there. -/
def ReadsAs (decode : Decoder α) (v : Json) (a : α) : Prop :=
  ∀ origin : Origin, origin.depth = none → decode origin (.ofJson v) = .ok a

lemma Origin.enter_of_depth {origin : Origin} (h : origin.depth = none) :
    origin.enter = .ok origin := by
  cases origin with
  | text n => cases h
  | value => rfl
  | aside => rfl

lemma readsAs_value (v : Json) : ReadsAs Decoder.value v v := by
  intro origin h
  rw [Decoder.value, h, Document.whole_ofJson, Decoder.ofFault]

/-- A value from here is not nested too deep to be read to the bottom. -/
def Origin.Reaches (origin : Origin) (v : Json) : Prop :=
  Decoder.value origin (.ofJson v) = .ok v

lemma Origin.reaches_of_depth {origin : Origin} (h : origin.depth = none) (v : Json) :
    origin.Reaches v := readsAs_value v origin h

mutual

lemma eq_of_whole : ∀ {depth : Depth} (v : Json) {w : Json},
    Document.whole depth (.ofJson v) = .ok w → w = v
  | _, .null, _, h | _, .bool _, _, h | _, .number _, _, h | _, .text _, _, h => by
    cases h
    rfl
  | _, .array items, w, h => by
    simp only [Document.ofJson, Document.whole, bind_eq_ok_iff] at h
    obtain ⟨_, -, items', hitems, hw⟩ := h
    rw [← Except.ok.inj hw, eq_of_wholeItems items hitems]
  | _, .object members, w, h => by
    simp only [Document.ofJson, Document.whole, bind_eq_ok_iff] at h
    obtain ⟨_, -, members', hmembers, hw⟩ := h
    rw [← Except.ok.inj hw, eq_of_wholeMembers members hmembers]

lemma eq_of_wholeItems : ∀ {depth : Depth} (vs : List Json) {ws : List Json},
    Document.wholeItems depth (Document.ofItems vs) = .ok ws → ws = vs
  | _, [], _, h => (Except.ok.inj h).symm
  | _, v :: rest, _, h => by
    simp only [Document.ofItems, Document.wholeItems, bind_eq_ok_iff] at h
    obtain ⟨v', hv, rest', hrest, hw⟩ := h
    rw [← Except.ok.inj hw, eq_of_whole v hv, eq_of_wholeItems rest hrest]

lemma eq_of_wholeMembers : ∀ {depth : Depth} (vs : Members) {ws : Members},
    Document.wholeMembers depth (Document.ofMembers vs) = .ok ws → ws = vs
  | _, [], _, h => (Except.ok.inj h).symm
  | _, (name, v) :: rest, _, h => by
    simp only [Document.ofMembers, Document.wholeMembers, bind_eq_ok_iff] at h
    obtain ⟨name', hname, v', hv, rest', hrest, hw⟩ := h
    rw [← Except.ok.inj hw, ← Except.ok.inj hname, eq_of_whole v hv, eq_of_wholeMembers rest hrest]

end

lemma value_eq_whole {origin : Origin} {d : Document} {w : Json} :
    Decoder.value origin d = .ok w ↔ d.whole origin.depth = .ok w := by
  rw [Decoder.value]
  cases d.whole origin.depth <;> simp [Decoder.ofFault]

/-- What is read to the bottom is read as it is. -/
lemma value_eq_ok_iff {origin : Origin} {v w : Json} :
    Decoder.value origin (.ofJson v) = .ok w ↔ origin.Reaches v ∧ w = v := by
  constructor
  · intro h
    obtain rfl := eq_of_whole v (value_eq_whole.mp h)
    exact ⟨h, rfl⟩
  · rintro ⟨h, rfl⟩
    exact h

lemma whole_of_wholeMembers {depth : Depth} {members ws : Members}
    (h : Document.wholeMembers depth (Document.ofMembers members) = .ok ws) :
    ∀ m ∈ members, Document.whole depth (.ofJson m.2) = .ok m.2 := by
  induction members generalizing ws with
  | nil => simp
  | cons m rest ih =>
    simp only [Document.ofMembers, Document.wholeMembers, bind_eq_ok_iff] at h
    obtain ⟨_, -, v, hv, rest', hrest, -⟩ := h
    obtain rfl := eq_of_whole m.2 hv
    exact List.forall_mem_cons.mpr ⟨hv, ih hrest⟩

/-- Inside an object that is not nested too deep, neither is any of its members. -/
lemma Origin.Reaches.enter {origin : Origin} {members : Members}
    (h : origin.Reaches (.object members)) :
    ∃ inner, origin.enter = .ok inner ∧ ∀ m ∈ members, inner.Reaches m.2 := by
  cases origin with
  | value => exact ⟨.value, rfl, fun m _ => reaches_of_depth rfl m.2⟩
  | aside => exact ⟨.aside, rfl, fun m _ => reaches_of_depth rfl m.2⟩
  | text depth =>
    cases depth with
    | zero => cases h
    | succ depth =>
      refine ⟨.text depth, rfl, fun m hm => ?_⟩
      have hwhole := value_eq_whole.mp h
      simp only [Document.ofJson, Document.whole, bind_eq_ok_iff] at hwhole
      obtain ⟨_, hdepth, ws, hws, -⟩ := hwhole
      obtain rfl := Except.ok.inj hdepth
      exact value_eq_whole.mpr (whole_of_wholeMembers hws m hm)

lemma readsAs_text (s : String) : ReadsAs Decoder.text (.text s) s := fun _ _ => rfl

lemma readsAs_bool (b : Bool) : ReadsAs Decoder.bool (.bool b) b := fun _ _ => rfl

mutual

/-- A value in memory can be passed over. -/
lemma skip_ofJson : ∀ v : Json, (Document.ofJson v).skip = .ok ()
  | .null | .bool _ | .number _ | .text _ => rfl
  | .array items => by
    rw [Document.ofJson, Document.skip, skipItems_ofItems items]
    rfl
  | .object members => by
    rw [Document.ofJson, Document.skip, skipMembers_ofMembers members]
    rfl

lemma skipItems_ofItems : ∀ vs : List Json, Document.skipItems (Document.ofItems vs) = .ok ()
  | [] => rfl
  | v :: rest => by
    rw [Document.ofItems, Document.skipItems, skip_ofJson v]
    exact skipItems_ofItems rest

lemma skipMembers_ofMembers :
    ∀ vs : Members, Document.skipMembers (Document.ofMembers vs) = .ok ()
  | [] => rfl
  | (name, v) :: rest => by
    rw [Document.ofMembers, Document.skipMembers, skip_ofJson v]
    exact skipMembers_ofMembers rest

end

lemma decoder_skip_ofJson (v : Json) : Decoder.skip (.ofJson v) = .ok () := by
  rw [Decoder.skip, skip_ofJson, Decoder.ofFault]

namespace ReadsAs

variable {decode : Decoder α} {v : Json} {a : α}

lemma ofNull : ReadsAs (Decoder.optional decode) .null none := fun _ _ => rfl

lemma optional (h : ReadsAs decode v a) (hv : v ≠ .null) :
    ReadsAs (Decoder.optional decode) v (some a) := by
  intro origin ho
  have hd : Document.ofJson v ≠ .null := by
    cases v <;> simp_all [Document.ofJson]
  rw [Decoder.optional, h origin ho]
  · rfl
  · exact hd

lemma list {items : List β} {encode : β → Json} {g : β → α}
    (h : ∀ b ∈ items, ReadsAs decode (encode b) (g b)) :
    ReadsAs (Decoder.list decode) (.array (items.map encode)) (items.map g) := by
  intro origin ho
  have hitems : Decoder.items decode origin (Document.ofItems (items.map encode)) =
      .ok (items.map g) := by
    induction items with
    | nil => rfl
    | cons b rest ih =>
      have hb := h b List.mem_cons_self origin ho
      have hrest := ih fun c hc => h c (List.mem_cons_of_mem b hc)
      simp only [List.map_cons, Document.ofItems, Decoder.items, hb, hrest, bind, Except.bind,
        pure, Except.pure]
  simp only [Document.ofJson, Decoder.list, Origin.enter_of_depth ho, hitems, bind, Except.bind]
  rfl

/-- An object whose members bring the slots to `t` is read as what is made of them. -/
lemma of_foldMembers {take : Origin → σ → String → Document → Except DecodeError σ} {s t : σ}
    {members : Members} {finish : σ → Except DecodeError α}
    (h : ∀ origin : Origin, origin.depth = none →
      Decoder.foldMembers (take origin) s (Document.ofMembers members) = .ok t)
    (hfinish : finish t = .ok a)
    (hdecode : ∀ origin ds ending, decode origin (.object ds ending) = (do
      let origin ← origin.enter
      let s ← Decoder.foldMembers (take origin) s ds
      Decoder.atEnd ending
      finish s)) :
    ReadsAs decode (.object members) a := by
  intro origin ho
  simp only [Document.ofJson, hdecode, Origin.enter_of_depth ho, h origin ho, bind, Except.bind,
    Decoder.atEnd, hfinish]

end ReadsAs

/-- A decoder that reads the same wherever a value comes from, if it is not nested too deep. -/
def Uniform (decode : Decoder α) : Prop :=
  ∀ {origin origin' : Origin} {v : Json} {a : α}, origin'.Reaches v →
    decode origin (.ofJson v) = .ok a → decode origin' (.ofJson v) = .ok a

lemma uniform_text : Uniform Decoder.text := by
  intro _ _ v _ _ h
  cases v <;> exact h

lemma uniform_bool : Uniform Decoder.bool := by
  intro _ _ v _ _ h
  cases v <;> exact h

lemma Uniform.optional {decode : Decoder α} (h : Uniform decode) :
    Uniform (Decoder.optional decode) := by
  intro origin origin' v o hreaches ho
  by_cases hv : v = .null
  · subst hv
    exact ho
  · have hsome : ∀ origin, Decoder.optional decode origin (.ofJson v) =
        (decode origin (.ofJson v)).map some := by
      intro origin
      cases v with
      | null => contradiction
      | _ => rfl
    rw [hsome] at ho ⊢
    cases ha : decode origin (.ofJson v) with
    | error e =>
      rw [ha] at ho
      cases ho
    | ok a => rwa [h hreaches ha, ← ha]

/-- A decoder that looks at the whole value is uniform. -/
lemma uniform_value {f : Json → Except DecodeError α} :
    Uniform fun origin d => Decoder.value origin d >>= f := by
  intro _ _ v a hreaches h
  simp only [bind_eq_ok_iff, value_eq_ok_iff] at h ⊢
  obtain ⟨w, ⟨-, hw⟩, ha⟩ := h
  exact ⟨v, ⟨hreaches, rfl⟩, hw ▸ ha⟩

/-! ### Slots -/

/-- The members take the slot of a field from one state to another: at most one of them has
a name of the field, and then the slot was empty. -/
def Fills (names : List String) (decode : Decoder α) (origin : Origin) :
    Option α → Members → Option α → Prop
  | slot, [], slot' => slot' = slot
  | slot, (name, v) :: rest, slot' =>
    if name ∈ names then
      slot = none ∧ ∃ a, decode origin (.ofJson v) = .ok a ∧
        Fills names decode origin (some a) rest slot'
    else Fills names decode origin slot rest slot'

variable {names : List String} {decode : Decoder α} {origin : Origin} {members : Members}
  {name : String} {v : Json} {a : α}

/-- Members with other names do not matter. -/
theorem fills_filter {slot slot' : Option α} :
    Fills names decode origin slot (members.filter fun m => m.1 ∈ names) slot' ↔
      Fills names decode origin slot members slot' := by
  induction members generalizing slot with
  | nil => rfl
  | cons m rest ih =>
    by_cases hm : m.1 ∈ names
    · rw [List.filter_cons_of_pos (by simpa using hm), Fills, Fills, if_pos hm, if_pos hm]
      simp only [ih]
    · rw [List.filter_cons_of_neg (by simpa using hm), Fills, if_neg hm]
      exact ih

namespace Fills

lemma absent {slot : Option α} (h : members.filter (fun m => m.1 ∈ names) = []) :
    Fills names decode origin slot members slot := by
  rw [← fills_filter, h, Fills]

lemma present (name : String) (v : Json) (h : members.filter (fun m => m.1 ∈ names) = [(name, v)])
    (hv : ReadsAs decode v a) (ho : origin.depth = none) :
    Fills names decode origin none members (some a) := by
  have hname : name ∈ names := by
    have hmem : (name, v) ∈ members.filter (fun m => m.1 ∈ names) :=
      h ▸ List.mem_singleton_self _
    simpa using (List.mem_filter.mp hmem).2
  rw [← fills_filter, h, Fills, if_pos hname]
  exact ⟨rfl, a, hv origin ho, rfl⟩

lemma of_uniform {origin' : Origin} {slot slot' : Option α} (hdecode : Uniform decode)
    (hreaches : ∀ m ∈ members, origin'.Reaches m.2)
    (h : Fills names decode origin slot members slot') :
    Fills names decode origin' slot members slot' := by
  induction members generalizing slot with
  | nil => exact h
  | cons m rest ih =>
    obtain ⟨hm, hrest⟩ := List.forall_mem_cons.mp hreaches
    rw [Fills] at h ⊢
    split at h
    · next hname =>
      obtain ⟨hslot, a, ha, hothers⟩ := h
      rw [if_pos hname]
      exact ⟨hslot, a, hdecode hm ha, ih hrest hothers⟩
    · next hname =>
      rw [if_neg hname]
      exact ih hrest h

end Fills

def canonicalForm (members : Members) : Members := sortMembers (canonicalMembers members)

lemma canonical_object (members : Members) :
    canonical (.object members) = .object (canonicalForm members) := rfl

lemma canonicalForm_canonicalForm (members : Members) :
    canonicalForm (canonicalForm members) = canonicalForm members := by
  have h := canonical_canonical (.object members)
  rwa [canonical_object, canonical_object, Json.object.injEq] at h

lemma filter_canonicalForm (p : String → Bool) (members : Members) :
    (canonicalForm members).filter (fun m => p m.1) =
      canonicalForm (members.filter fun m => p m.1) := by
  rw [canonicalForm, filter_sortMembers, canonicalForm, filter_canonicalMembers]

namespace Fills

lemma absent_canonical {slot : Option α} (h : members.filter (fun m => m.1 ∈ names) = []) :
    Fills names decode origin slot (canonicalForm members) slot := by
  refine absent ?_
  rw [filter_canonicalForm (fun n => n ∈ names), h]
  rfl

lemma present_canonical (name : String) (v : Json)
    (h : members.filter (fun m => m.1 ∈ names) = [(name, v)])
    (hv : ReadsAs decode (canonical v) a) (ho : origin.depth = none) :
    Fills names decode origin none (canonicalForm members) (some a) := by
  have hone : (canonicalForm members).filter (fun m => m.1 ∈ names) = [(name, canonical v)] := by
    rw [filter_canonicalForm (fun n => n ∈ names), h]
    rfl
  exact present name (canonical v) hone hv ho

end Fills

/-- What holds of no members and goes along with every single one holds of all of them. -/
theorem foldMembers_eq_ok_iff {take : σ → String → Document → Except DecodeError σ}
    {R : σ → Members → σ → Prop} (hnil : ∀ s t, R s [] t ↔ s = t)
    (hcons : ∀ s name v rest t, R s ((name, v) :: rest) t ↔
      ∃ u, take s name (.ofJson v) = .ok u ∧ R u rest t) {s t : σ} :
    Decoder.foldMembers take s (Document.ofMembers members) = .ok t ↔ R s members t := by
  induction members generalizing s with
  | nil => rw [hnil, Document.ofMembers, Decoder.foldMembers, Except.ok.injEq]
  | cons m rest ih =>
    obtain ⟨name, v⟩ := m
    rw [hcons, Document.ofMembers, Decoder.foldMembers]
    simp only [Decoder.ofFault, bind, Except.bind]
    cases take s name (.ofJson v) with
    | error e => simp
    | ok u => simpa using ih

lemma fill_eq_ok {slot slot' : Option α} {title : String} {r : Except DecodeError α} :
    Decoder.fill slot title r = .ok slot' ↔ slot = none ∧ ∃ a, r = .ok a ∧ some a = slot' := by
  cases slot <;> cases r <;> simp [Decoder.fill, Decoder.shapeError, Except.map]

lemma set_fill_eq_ok {slot : Option α} {title : String} {r : Except DecodeError α}
    {set : Option α → σ} {t : σ} :
    (do return set (← Decoder.fill slot title r)) = Except.ok t ↔
      slot = none ∧ ∃ a, r = .ok a ∧ set (some a) = t := by
  cases slot <;> cases r <;> simp [Decoder.fill, Decoder.shapeError, Except.map]

/-- The state behind a member that fills a slot. -/
lemma exists_filled {P : Prop} {Q : α → Prop} {R : σ → Prop} {set : α → σ} :
    (∃ t, (P ∧ ∃ a, Q a ∧ set a = t) ∧ R t) ↔ P ∧ ∃ a, Q a ∧ R (set a) := by
  constructor
  · rintro ⟨_, ⟨hP, a, hQ, rfl⟩, hR⟩
    exact ⟨hP, a, hQ, hR⟩
  · rintro ⟨hP, a, hQ, hR⟩
    exact ⟨set a, ⟨hP, a, hQ, rfl⟩, hR⟩

end AlertFilter.Json
