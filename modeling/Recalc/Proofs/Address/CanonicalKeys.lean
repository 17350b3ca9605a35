import Mathlib.Data.Sym.Sym2.Order
import Mathlib.Order.Lattice.Nat
import Recalc.Proofs.Address.Notation
import Recalc.Proofs.Build.Closure

namespace Recalc

-- What one reference is about. It does not matter which row of a range is given first.
inductive Part where
  | cell (cell : CellRef)
  | range (sheet : String) (firstColumn lastColumn : Nat) (rows : Sym2 Nat)

inductive Sited (sheet : String) : List Char → String → List Char → Prop where
  | own (absent : '!' ∉ rest) : Sited sheet rest sheet rest
  | named (name : String) (absent : '!' ∉ rest) :
      Sited sheet (List.replicate i '\'' ++ (name.toList ++ (List.replicate j '\'' ++ '!' :: rest))) name rest

inductive Denotes (sheet : String) (text : List Char) : Part → Prop where
  | cell (sited : Sited sheet text name rest) (named : name ≠ "" ∧ Named name) (spells : Spells (condensed rest) p) :
      Denotes sheet text (.cell ⟨name,p.column,p.row⟩)
  | range (sited : Sited sheet text name (first ++ ':' :: last)) (named : name ≠ "" ∧ Named name)
      (start : Spells (condensed first) p) (stop : Spells (condensed last) q) (ordered : p.column ≤ q.column) :
      Denotes sheet text (.range name p.column q.column s(p.row,q.row))

-- Every sheet that the text is about has a name that can be told from the marks around it.
def Told (sheet text : String) : Prop := ∀ cs ∈ Text.splitEach ';' text.toList,
  ∃ name rest, Sited sheet cs name rest ∧ name ≠ "" ∧ Named name

def DenotesAll (sheet text : String) (parts : List Part) : Prop :=
  List.Forall₂ (Denotes sheet) (Text.splitEach ';' text.toList) parts

namespace Part

def rect (sheet : String) (firstColumn lastColumn : Nat) (rows : Sym2 Nat) : Rect :=
  ⟨sheet,firstColumn,rows.inf,lastColumn,rows.sup⟩

def text : Part → String
  | cell c => c.text
  | range sheet firstColumn lastColumn rows => (rect sheet firstColumn lastColumn rows).text

inductive Placed : Part → Prop where
  | cell (bounded : c.Bounded) (named : c.sheet ≠ "" ∧ Named c.sheet) : Placed (.cell c)
  | range (bounded : (rect sheet firstColumn lastColumn rows).Bounded) (named : sheet ≠ "" ∧ Named sheet) :
      Placed (.range sheet firstColumn lastColumn rows)

end Part

section
variable {sheet name : String} {text rest cs : List Char} {part : Part} {p : Position}

theorem Sited.split (sited : Sited sheet text name rest) (named : name ≠ "" ∧ Named name) :
    ∃ on, splitSheet (String.ofList text) = (on,String.ofList rest) ∧ on.getD sheet = name := by
  cases sited with
  | own absent => exact ⟨none,splitSheet_none (by simpa using absent),rfl⟩
  | named _ absent =>
    rename_i i j
    have given : name.toList ≠ [] := by simpa using named.1
    have free : ∀ c ∈ name.toList, decide (c = '\'') = false := by
      intro c member
      simpa using fun same : c = '\'' => named.2 '\'' (by simp) (same ▸ member)
    have quotes : ∀ c ∈ List.replicate i '\'' ++ List.replicate j '\'', decide (c = '\'') = true := by
      intro c member
      rcases List.mem_append.mp member with left | right
      · simp [List.eq_of_mem_replicate left]
      · simp [List.eq_of_mem_replicate right]
    let quoted := String.ofList (List.replicate i '\'' ++ (name.toList ++ List.replicate j '\''))
    have written : String.ofList (List.replicate i '\'' ++ (name.toList ++ (List.replicate j '\'' ++ '!' :: rest))) =
        quoted ++ "!" ++ String.ofList rest := by
      rw [← String.toList_inj]
      simp [quoted]
    have bared : bare quoted = name := by
      unfold bare
      rw [String.toList_ofList,Text.trimBy_around quotes given (fun c head => free c (List.mem_of_head? head))
        (fun c last => free c (List.mem_of_getLast? last)),String.ofList_toList]
    have some : quoted ≠ "" := by
      intro none
      rw [none] at bared
      exact named.1 bared.symm
    refine ⟨name,?_,rfl⟩
    rw [written,splitSheet_append some (by simpa using absent),bared]

theorem Sited.before (sited : Sited sheet text name rest) (named : Named name) : ∃ before, text = before ++ rest ∧ ':' ∉ before := by
  cases sited with
  | own absent => exact ⟨[],rfl,by simp⟩
  | named _ absent =>
    rename_i i j
    refine ⟨List.replicate i '\'' ++ (name.toList ++ (List.replicate j '\'' ++ ['!'])),by simp,?_⟩
    have colon := named ':' (by simp)
    simp [colon]

theorem Sited.absent (sited : Sited sheet text name rest) : '!' ∉ rest := by
  cases sited with
  | own absent => exact absent
  | named _ absent => exact absent

theorem CellRef.parse_spells (split : splitSheet (String.ofList text) = (on,String.ofList rest)) (site : on.getD sheet = name) (some : name ≠ "")
    {c : CellRef} : CellRef.parse (String.ofList text) sheet = .ok c ↔ ∃ p, Spells (condensed rest) p ∧ c = ⟨name,p.column,p.row⟩ := by
  have spelled (p : Position) := Address.parse_spells (p := p) split
  simp only [String.toList_ofList] at spelled
  unfold CellRef.parse
  constructor
  · intro parsed
    obtain ⟨a,read,parsed⟩ := bind_ok.mp parsed
    obtain ⟨sheets,-⟩ := Address.parse_ok read
    rw [split] at sheets
    split at parsed
    · cases parsed
    · rename_i row found
      simp only [sheets,site,some,if_false] at parsed
      cases parsed
      refine ⟨⟨a.column,row⟩,(spelled ⟨a.column,row⟩).mp ?_,rfl⟩
      have on : a.sheet = on := sheets
      rw [read,← on,← found]
  · intro ⟨p,spells,same⟩
    rw [(spelled p).mpr spells,same]
    simp only [bind,Except.bind,site,some,if_false]
    rfl

theorem Rect.parse_spells (split : splitSheet (String.ofList text) = (on,String.ofList rest)) (site : on.getD sheet = name) (some : name ≠ "")
    (absent : '!' ∉ rest) (ranged : ':' ∈ rest) {r : Rect} :
    Rect.parse (String.ofList text) sheet = .ok r ↔ ∃ first last p q, rest = first ++ ':' :: last ∧
      (Spells (condensed first) p ∧ Spells (condensed last) q) ∧ p.column ≤ q.column ∧
      r = .ofCorners name p.column p.row q.column q.row := by
  have spelled {cs : List Char} (within : '!' ∉ cs) (p : Position) :
      Address.parse (String.ofList cs) = .ok ⟨none,p.column,.some p.row⟩ ↔ Spells (condensed cs) p := by
    have whole : splitSheet (String.ofList cs) = (none,String.ofList cs) := splitSheet_none (by simpa using within)
    simpa using Address.parse_spells (p := p) whole
  unfold Rect.parse splitRange
  rw [split]
  simp only [String.toList_ofList]
  cases parts : Text.splitFirst ':' rest with
  | none => exact absurd ranged (Text.splitFirst_eq_none.mp parts)
  | some pair =>
    obtain ⟨first,last⟩ := pair
    obtain ⟨joined,-⟩ := Text.splitFirst_joins parts
    have left : '!' ∉ first := fun member => absent (by simp [joined,member])
    have right : '!' ∉ last := fun member => absent (by simp [joined,member])
    simp only [Option.map_some]
    constructor
    · intro parsed
      obtain ⟨a,start,parsed⟩ := bind_ok.mp parsed
      obtain ⟨b,stop,parsed⟩ := bind_ok.mp parsed
      split at parsed
      · rename_i top bottom above below
        split at parsed
        · cases parsed
        · rename_i ordered
          simp only [site,some,if_false] at parsed
          cases parsed
          have sheets : a.sheet = none ∧ b.sheet = none := by
            rw [(Address.parse_ok start).1,(Address.parse_ok stop).1,splitSheet_none (by simpa using left),
              splitSheet_none (by simpa using right)]
            exact ⟨rfl,rfl⟩
          refine ⟨first,last,⟨a.column,top⟩,⟨b.column,bottom⟩,joined,⟨(spelled left _).mp ?_,(spelled right _).mp ?_⟩,
            Nat.le_of_not_lt ordered,rfl⟩
          · rw [start,← above,← sheets.1]
          · rw [stop,← below,← sheets.2]
      · cases parsed
    · intro ⟨first',last',p,q,joined',⟨start,stop⟩,ordered,same⟩
      rw [joined',Text.splitFirst_append (start.free ':' (by simp))] at parts
      cases parts
      rw [(spelled left p).mpr start,(spelled right q).mpr stop]
      simp only [bind,Except.bind,Nat.not_lt.mpr ordered,if_false,site,some,same]
      rfl

theorem Denotes.taken (denotes : Denotes sheet text part) : canonicalPart (String.ofList text) sheet = .ok part.text := by
  cases denotes with
  | cell sited named spells =>
    obtain ⟨on,split,site⟩ := sited.split named
    obtain ⟨before,joined,free⟩ := sited.before named.2
    have colon := spells.free ':' (by simp)
    have single : isRange (String.ofList text) = false := isRange_false (by simp [joined,free,colon])
    have parsed := (CellRef.parse_spells split site named.1).mpr ⟨_,spells,rfl⟩
    unfold canonicalPart
    rw [if_neg (by simp [single]),parsed]
    rfl
  | range sited named start stop ordered =>
    rename_i name first last p q
    obtain ⟨on,split,site⟩ := sited.split named
    obtain ⟨before,joined,free⟩ := sited.before named.2
    have ranged : isRange (String.ofList text) = true := by
      have colon := start.free ':' (by simp)
      have given : first ≠ [] := by
        intro none
        rw [none] at start
        exact start.given rfl
      have parts : Text.splitFirst ':' (before ++ first ++ ':' :: last) = some (before ++ first,last) :=
        Text.splitFirst_append (by simp [free,colon])
      unfold isRange
      rw [String.toList_ofList,joined,← List.append_assoc,parts]
      simp [given]
    have parsed := (Rect.parse_spells split site named.1 sited.absent (by simp)).mpr ⟨first,last,p,q,rfl,⟨start,stop⟩,ordered,rfl⟩
    unfold canonicalPart
    rw [if_pos ranged,parsed]
    rfl

theorem canonicalPart_denotes (sited : Sited sheet text name rest) (named : name ≠ "" ∧ Named name) :
    canonicalPart (String.ofList text) sheet = .ok k ↔ ∃ part, Denotes sheet text part ∧ part.text = k := by
  constructor
  · intro made
    obtain ⟨on,split,site⟩ := sited.split named
    rcases canonicalPart_ok made with ⟨ranged,r,parsed,written⟩ | ⟨single,c,parsed,written⟩
    · have colon : ':' ∈ rest := by
        obtain ⟨before,joined,free⟩ := sited.before named.2
        apply Decidable.byContradiction
        intro other
        rw [isRange_false (by simp [joined,free,other])] at ranged
        cases ranged
      obtain ⟨first,last,p,q,parts,⟨start,stop⟩,ordered,same⟩ := (Rect.parse_spells split site named.1 sited.absent colon).mp parsed
      refine ⟨_,.range (parts ▸ sited) named start stop ordered,?_⟩
      rw [written,same]
      rfl
    · obtain ⟨p,spells,same⟩ := (CellRef.parse_spells split site named.1).mp parsed
      exact ⟨_,.cell sited named spells,by rw [written,same]; rfl⟩
  · intro ⟨part,denotes,written⟩
    rw [← written]
    exact denotes.taken

theorem Denotes.placed (denotes : Denotes sheet text part) : part.Placed := by
  cases denotes with
  | cell sited named spells => exact .cell ⟨spells.bounds.1,spells.bounds.2⟩ named
  | range sited named start stop ordered =>
    have left := start.bounds
    have right := stop.bounds
    refine .range ⟨⟨left.1.1,ordered,right.1.2⟩,?_⟩ named
    simp only [Part.rect,Sym2.inf_mk,Sym2.sup_mk]
    omega

end

namespace Part
variable {part other : Part} {parts others : List Part}

theorem Placed.semicolon (placed : part.Placed) : ';' ∉ part.text.toList := by
  cases placed with
  | cell bounded named =>
    intro member
    rcases (mem_cell (by decide) (by decide)).mp member with inside | same
    · exact named.2 ';' (by simp) inside
    · cases same
  | range bounded named =>
    intro member
    exact named.2 ';' (by simp) (semicolon_rect.mp member)

theorem Placed.again (placed : part.Placed) (sheet : String) : canonicalPart part.text sheet = .ok part.text := by
  cases placed with
  | @cell c bounded named =>
    have single : isRange c.text = false := isRange_false fun member => named.2 ':' (by simp) (colon_cell.mp member)
    unfold canonicalPart text
    rw [if_neg (by simp [single]),CellRef.parse_own bounded named.1 named.2.bare sheet]
    rfl
  | range bounded named =>
    unfold canonicalPart text
    rw [if_pos (isRange_rect named.2.plain named.1),Rect.parse_own bounded named.1 named.2.bare sheet]
    rfl

theorem text_apart {c : CellRef} (named : Named c.sheet) : (cell c).text ≠ (range sheet a b rows).text := by
  intro same
  have colon : ':' ∈ c.text.toList := by
    rw [show c.text = (rect sheet a b rows).text from same]
    exact colon_rect _
  exact named ':' (by simp) (colon_cell.mp colon)

theorem Placed.text_inj (placed : part.Placed) (placed' : other.Placed) (same : part.text = other.text) : part = other := by
  cases placed with
  | cell bounded named => cases placed' with
    | cell bounded' named' => rw [CellRef.text_inj same]
    | range bounded' named' => exact absurd same (text_apart named.2)
  | range bounded named => cases placed' with
    | cell bounded' named' => exact absurd same.symm (text_apart named'.2)
    | @range sheet a b rows bounded' named' =>
      have read := Rect.parse_own bounded named.1 named.2.bare ""
      rw [show Rect.text _ = (rect sheet a b rows).text from same,Rect.parse_own bounded' named'.1 named'.2.bare ""] at read
      simp only [rect,Except.ok.injEq,Rect.mk.injEq] at read
      obtain ⟨sheets,first,top,last,bottom⟩ := read
      rw [sheets,first,last,Sym2.inf_eq_inf_and_sup_eq_sup.mp ⟨top,bottom⟩]

def spelled (parts : List Part) : String := String.intercalate ";" (parts.map text)

theorem splitEach_spelled (given : parts ≠ []) (placed : ∀ part ∈ parts, part.Placed) :
    Text.splitEach ';' (spelled parts).toList = parts.map fun part => part.text.toList := by
  unfold spelled
  rw [String.toList_intercalate,List.map_map]
  refine Text.splitEach_intercalate (by simpa using given) ?_
  intro cs listed
  obtain ⟨part,member,written⟩ := List.mem_map.mp listed
  rw [← written]
  exact (placed part member).semicolon

theorem spelled_inj (given : parts ≠ []) (placed : ∀ part ∈ parts, part.Placed) (given' : others ≠ [])
    (placed' : ∀ part ∈ others, part.Placed) (same : spelled parts = spelled others) : parts = others := by
  have texts := splitEach_spelled given placed
  rw [same,splitEach_spelled given' placed'] at texts
  clear given given' same
  induction parts generalizing others with
  | nil => simpa using texts
  | cons part parts ih => cases others with
    | nil => cases texts
    | cons other others =>
      simp only [List.map_cons,List.cons.injEq,String.toList_inj] at texts
      rw [(placed part (by simp)).text_inj (placed' other (by simp)) texts.1.symm,
        ih (fun part member => placed part (by simp [member])) (fun part member => placed' part (by simp [member])) texts.2]

theorem canonicalize_spelled (given : parts ≠ []) (placed : ∀ part ∈ parts, part.Placed) (sheet : String) :
    canonicalize (spelled parts) sheet = .ok (spelled parts) := by
  have each : (parts.map fun part => part.text.toList).mapM (fun cs => canonicalPart (String.ofList cs) sheet) =
      .ok (parts.map text) := by
    clear given
    induction parts with
    | nil => rfl
    | cons part parts ih =>
      have first := (placed part (by simp)).again sheet
      have rest := ih fun part member => placed part (by simp [member])
      rw [List.map_cons,List.mapM_cons,String.ofList_toList,first,rest]
      rfl
  unfold canonicalize
  rw [splitEach_spelled given placed,each]
  rfl

end Part

theorem mapM_denotes {sheet : String} {texts : List (List Char)} {ks : List String}
    (told : ∀ cs ∈ texts, ∃ name rest, Sited sheet cs name rest ∧ name ≠ "" ∧ Named name) :
    texts.mapM (fun cs => canonicalPart (String.ofList cs) sheet) = .ok ks ↔
      ∃ parts, List.Forall₂ (Denotes sheet) texts parts ∧ parts.map Part.text = ks := by
  induction texts generalizing ks with
  | nil =>
    constructor
    · intro made
      cases made
      exact ⟨[],.nil,rfl⟩
    · intro ⟨parts,denotes,written⟩
      cases denotes
      rw [← written]
      rfl
  | cons cs texts ih =>
    obtain ⟨name,rest,sited,named⟩ := told cs (by simp)
    have ih {ks : List String} := @ih ks fun cs member => told cs (by simp [member])
    rw [List.mapM_cons]
    constructor
    · intro made
      obtain ⟨k,first,made⟩ := bind_ok.mp made
      obtain ⟨ls,further,made⟩ := bind_ok.mp made
      cases made
      obtain ⟨part,denotes,written⟩ := (canonicalPart_denotes sited named).mp first
      obtain ⟨parts,each,written'⟩ := ih.mp further
      exact ⟨part :: parts,.cons denotes each,by rw [List.map_cons,written,written']⟩
    · intro ⟨parts,denotes,written⟩
      cases denotes with
      | cons first further =>
        rw [(canonicalPart_denotes sited named).mpr ⟨_,first,rfl⟩,ih.mpr ⟨_,further,rfl⟩]
        cases written
        rfl

section
variable {sheet site text other k l : String} {parts others : List Part}

theorem canonicalize_denotes (told : Told sheet text) :
    canonicalize text sheet = .ok k ↔ ∃ parts, DenotesAll sheet text parts ∧ Part.spelled parts = k := by
  unfold canonicalize
  constructor
  · intro made
    obtain ⟨ks,each,made⟩ := bind_ok.mp made
    cases made
    obtain ⟨parts,denotes,written⟩ := (mapM_denotes told).mp each
    exact ⟨parts,denotes,by rw [← written]; rfl⟩
  · intro ⟨parts,denotes,written⟩
    rw [(mapM_denotes told).mpr ⟨parts,denotes,rfl⟩,← written]
    rfl

theorem placed_all {texts : List (List Char)} (denotes : List.Forall₂ (Denotes sheet) texts parts) : ∀ part ∈ parts, part.Placed := by
  induction denotes with
  | nil => simp
  | cons denotes _ ih =>
    intro part member
    rcases List.mem_cons.mp member with same | member
    · rw [same]
      exact denotes.placed
    · exact ih part member

theorem DenotesAll.placed (denotes : DenotesAll sheet text parts) : parts ≠ [] ∧ ∀ part ∈ parts, part.Placed := by
  refine ⟨?_,placed_all denotes⟩
  obtain ⟨first,more,split⟩ := Text.splitEach_cons ';' text.toList
  intro none
  unfold DenotesAll at denotes
  rw [split,none] at denotes
  cases denotes

-- A text that is accepted denotes one list of parts, and its canonical text says nothing else.
theorem DenotesAll.only (told : Told sheet text) (made : canonicalize text sheet = .ok k) :
    ∃ parts, (∀ ps, DenotesAll sheet text ps ↔ ps = parts) ∧ (parts ≠ [] ∧ ∀ part ∈ parts, part.Placed) ∧ Part.spelled parts = k := by
  obtain ⟨parts,denotes,written⟩ := (canonicalize_denotes told).mp made
  refine ⟨parts,fun ps => ⟨fun also => ?_,fun same => same ▸ denotes⟩,denotes.placed,written⟩
  have again := (canonicalize_denotes told).mpr ⟨ps,also,rfl⟩
  rw [made,← written] at again
  exact Part.spelled_inj also.placed.1 also.placed.2 denotes.placed.1 denotes.placed.2 (Except.ok.inj again).symm

-- References are the same key just if they denote the same, keys stay as they are, and a cell or a range is
-- read back from its text.
theorem canonical_keys (told : Told sheet text) (told' : Told site other) (made : canonicalize text sheet = .ok k)
    (made' : canonicalize other site = .ok l) :
    (∃ parts others, (∀ ps, DenotesAll sheet text ps ↔ ps = parts) ∧ (∀ ps, DenotesAll site other ps ↔ ps = others) ∧
      (k = l ↔ parts = others)) ∧
    (∀ anywhere, canonicalize k anywhere = .ok k) ∧
    (∀ c : CellRef, c.Bounded → c.sheet ≠ "" ∧ Named c.sheet → ∀ anywhere, CellRef.parse c.text anywhere = .ok c) ∧
    ∀ r : Rect, r.Bounded → r.sheet ≠ "" ∧ Named r.sheet → ∀ anywhere, Rect.parse r.text anywhere = .ok r := by
  obtain ⟨parts,only,⟨given,placed⟩,written⟩ := DenotesAll.only told made
  obtain ⟨others,only',⟨given',placed'⟩,written'⟩ := DenotesAll.only told' made'
  refine ⟨⟨parts,others,only,only',?_⟩,fun anywhere => ?_,fun c bounded named => CellRef.parse_own bounded named.1 named.2.bare,
    fun r bounded named => Rect.parse_own bounded named.1 named.2.bare⟩
  · constructor
    · intro same
      rw [← written,← written'] at same
      exact Part.spelled_inj given placed given' placed' same
    · intro same
      rw [← written,← written',same]
  · rw [← written]
    exact Part.canonicalize_spelled given placed anywhere

theorem canonical_keys_spelled : canonicalize "''Data'!$b$007;r[2]c[1]:$A1" "S" = .ok "Data!B7;S!A1:A2" ∧
    canonicalize "Data!R7C2;'S'!a1 :a2" "T" = .ok "Data!B7;S!A1:A2" ∧
    ∃ parts, (∀ ps, DenotesAll "S" "''Data'!$b$007;r[2]c[1]:$A1" ps ↔ ps = parts) ∧
      ∀ ps, DenotesAll "T" "Data!R7C2;'S'!a1 :a2" ps ↔ ps = parts := by
  have made : canonicalize "''Data'!$b$007;r[2]c[1]:$A1" "S" = .ok "Data!B7;S!A1:A2" := by decide +kernel
  have made' : canonicalize "Data!R7C2;'S'!a1 :a2" "T" = .ok "Data!B7;S!A1:A2" := by decide +kernel
  have told : Told "S" "''Data'!$b$007;r[2]c[1]:$A1" := by
    have pieces : Text.splitEach ';' "''Data'!$b$007;r[2]c[1]:$A1".toList =
      [List.replicate 2 '\'' ++ ("Data".toList ++ (List.replicate 1 '\'' ++ '!' :: "$b$007".toList)),"r[2]c[1]:$A1".toList] := by
      decide +kernel
    unfold Told
    rw [pieces]
    intro cs member
    simp only [List.mem_cons,List.not_mem_nil,or_false] at member
    rcases member with same | same
    · rw [same]
      exact ⟨"Data",_,.named "Data" (by decide),by decide,by decide⟩
    · rw [same]
      exact ⟨"S",_,.own (by decide),by decide,by decide⟩
  have told' : Told "T" "Data!R7C2;'S'!a1 :a2" := by
    have pieces : Text.splitEach ';' "Data!R7C2;'S'!a1 :a2".toList =
      [List.replicate 0 '\'' ++ ("Data".toList ++ (List.replicate 0 '\'' ++ '!' :: "R7C2".toList)),
        List.replicate 1 '\'' ++ ("S".toList ++ (List.replicate 1 '\'' ++ '!' :: "a1 :a2".toList))] := by
      decide +kernel
    unfold Told
    rw [pieces]
    intro cs member
    simp only [List.mem_cons,List.not_mem_nil,or_false] at member
    rcases member with same | same
    · rw [same]
      exact ⟨"Data",_,.named "Data" (by decide),by decide,by decide⟩
    · rw [same]
      exact ⟨"S",_,.named "S" (by decide),by decide,by decide⟩
  obtain ⟨⟨parts,others,only,only',same⟩,-⟩ := canonical_keys told told' made made'
  rw [← same.mp rfl] at only'
  exact ⟨made,made',parts,only,only'⟩

end
end Recalc
