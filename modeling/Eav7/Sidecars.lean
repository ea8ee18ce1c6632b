import Eav7.Armazem
import Eav7.Base.Invariante
import Eav7.Base.Registros
import Eav7.Coercao

/-!
# The sidecars of the block file

Two files beside the block file keep the index and the hashes of the lines, one record a
line, so that a boot does not scan. They are written on the way, and any of these writes may
fail. They answer for the lines over every run in which a record is only added to files that
have one record for each earlier line, and files that were given up are gone.
-/

namespace Eav7

open Base Registros

/-! ## The files -/

def idxRec : ℕ := 16

def hashRec : ℕ := 32

/-- What becomes of a write: it is done, its file does not open, or it stops half way. -/
inductive Gravacao where
  | feita
  | naoAbriu
  | parou (gravados : ℕ)
deriving DecidableEq

/-- A file after bytes are added to its end. -/
def Gravacao.acrescenta (g : Gravacao) (arquivo : Option Bytes) (bs : Bytes) : Option Bytes :=
  match g with
  | feita => some (arquivo.getD [] ++ bs)
  | naoAbriu => arquivo
  | parou gravados => some (arquivo.getD [] ++ bs.take gravados)

/-- What becomes of the writes of a call, and of the removals once one of them failed. -/
structure Falhas where
  idx : Gravacao := .feita
  hashes : Gravacao := .feita
  removeIdx : Bool := true
  removeHashes : Bool := true

/-- The writes of a call are all done. -/
def Falhas.Nenhuma (f : Falhas) : Prop := f.idx = .feita ∧ f.hashes = .feita

instance (f : Falhas) : Decidable f.Nenhuma := inferInstanceAs (Decidable (_ ∧ _))

/-- Which of the two new files took the place of the old ones. -/
inductive Troca where
  | nenhuma
  | soIdx
  | feita
deriving DecidableEq

/-- The block store with its sidecars. -/
structure Sidecars extends BlockStore where
  idx : Option Bytes := none
  hashes : Option Bytes := none
  sidecarsOk : Bool := false

def hexValor (b : UInt8) : Option UInt8 :=
  if 48 ≤ b ∧ b ≤ 57 then some (b - 48)
  else if 97 ≤ b ∧ b ≤ 102 then some (b - 87)
  else if 65 ≤ b ∧ b ≤ 70 then some (b - 55)
  else none

def hexDecode : Bytes → Option Bytes
  | [] => some []
  | [_] => none
  | a :: b :: bs => do
    let alto ← hexValor a
    let baixo ← hexValor b
    let resto ← hexDecode bs
    return (16 * alto + baixo) :: resto

def digestFromHash (hash : String) : Option Bytes :=
  if (bytesDe hash).length ≠ 64 then none else hexDecode (bytesDe hash)

/-- The field `hash` of a line, when it is a text. -/
def campoHash (linha : String) : Option String :=
  match parseJson linha with
  | .ok v => texto (v.campo "hash")
  | .error _ => none

def hashHexFromLine (linha : String) : Option String :=
  (campoHash linha).filter fun s => (bytesDe s).length = 64

/-- The record of the index: offset and length, 64 bits each. -/
def registroIdx (e : ℕ × ℕ) : Bytes := littleEndian 8 e.1 ++ littleEndian 8 e.2

def lerRegistroIdx (bs : Bytes) : ℕ × ℕ :=
  (deLittleEndian (bs.take 8), deLittleEndian ((bs.drop 8).take 8))

namespace Sidecars

variable (s : Sidecars)

/-! ## Reading -/

def hashAt (height : ℕ) : Option String :=
  if s.count ≤ height then none
  else s.hashes.bind fun bs =>
    let dig := registro hashRec height bs
    if dig.length < hashRec then none else some (hexEncode dig)

/-- The field `hash` of the line at a height, as the index finds it. -/
def hashNoDisco (height : ℕ) : Option String :=
  match s.get height with
  | .ok linha => linha.bind campoHash
  | .error _ => none

/-- Takes the index from the sidecars, when they look aligned with the file. The sum that does
not fit 64 bits aborts. -/
def tryLoadSidecars : Option (Bool × Sidecars) :=
  match s.file, s.idx, s.hashes with
  | some file, some idx, some hashes =>
    let n := idx.length / idxRec
    if idx.length % idxRec ≠ 0 ∨ hashes.length % hashRec ≠ 0 ∨ n ≠ hashes.length / hashRec then
      some (false, s)
    else if n = 0 then some (true, { s with offsets := [], sidecarsOk := true })
    else
      let offsets := (List.range n).map fun i => lerRegistroIdx (registro idxRec i idx)
      if u64Limit ≤ Linhas.fim offsets then none
      else if file.length < Linhas.fim offsets then some (false, s)
      else
        let t := { s with offsets := offsets }
        if t.hashNoDisco 0 = some (hexEncode (registro hashRec 0 hashes)) then
          some (true, { t with sidecarsOk := true })
        else some (false, { t with offsets := [] })
  | _, _, _ => some (false, s)

/-! ## Writing -/

/-- Gives the sidecars up. -/
def dropSidecars (f : Falhas) : Sidecars :=
  { s with
    idx := if f.removeIdx then none else s.idx
    hashes := if f.removeHashes then none else s.hashes
    sidecarsOk := false }

def appendSidecar (off len : ℕ) (hashHex : String) (f : Falhas) : Sidecars :=
  match digestFromHash hashHex with
  | none => s
  | some dig =>
    let comIdx := { s with idx := f.idx.acrescenta s.idx (registroIdx (off, len)) }
    if f.idx ≠ .feita then comIdx.dropSidecars f
    else
      let comHash := { comIdx with hashes := f.hashes.acrescenta s.hashes dig }
      if f.hashes ≠ .feita then comHash.dropSidecars f else { comHash with sidecarsOk := true }

/-- A file that does not exist is not cut. -/
def truncateSidecars (height : ℕ) (f : Falhas) : Sidecars :=
  if s.idx.isSome ∧ f.idx ≠ .feita then s.dropSidecars f
  else
    let comIdx := { s with idx := s.idx.map (comTamanho 0 (idxRec * height)) }
    if s.hashes.isSome ∧ f.hashes ≠ .feita then comIdx.dropSidecars f
    else { comIdx with hashes := s.hashes.map (comTamanho 0 (hashRec * height)) }

/-- The digest of a height: the one that is given, or that of the line on the disk. -/
def digestNa (hashList : List (Option String)) (height : ℕ) : Option Bytes :=
  (hashList[height]?.join.bind digestFromHash).or ((s.hashNoDisco height).bind digestFromHash)

end Sidecars

abbrev OpSidecars := EStateM ErroDoArmazem Sidecars Unit

/-- An operation of the store, which leaves the sidecars alone. -/
def noArmazem (m : EStateM ErroDoArmazem BlockStore Unit) : OpSidecars := fun s =>
  match m s.toBlockStore with
  | .ok _ store => .ok ⟨⟩ { s with toBlockStore := store }
  | .error e store => .error e { s with toBlockStore := store }

namespace Sidecars

def persistSidecars (hashList : List (Option String)) (troca : Troca) : OpSidecars := do
  let s ← get
  match (List.range s.count).mapM (s.digestNa hashList) with
  | none => throw .io
  | some digests =>
    let idx := s.offsets.flatMap registroIdx
    match troca with
    | .nenhuma => throw .io
    | .soIdx =>
      set { s with idx := some idx }
      throw .io
    | .feita => set { s with idx := some idx, hashes := some digests.flatten, sidecarsOk := true }

def append (linha : String) (f : Falhas) : OpSidecars := do
  let s ← get
  noArmazem (BlockStore.append linha)
  match hashHexFromLine linha with
  | some h => modify (·.appendSidecar s.fileBytes (bytesDe linha).length h f)
  | none => modify fun s => { s with sidecarsOk := false }

def truncateFrom (height : ℕ) (f : Falhas) : OpSidecars := do
  let s ← get
  if s.count ≤ height then return
  noArmazem (BlockStore.truncateFrom height)
  modify (·.truncateSidecars height f)

/-- The rewriting of the sidecars that fails is passed over. -/
def reset (linhas : List String) (troca : Troca) (f : Falhas) : OpSidecars := do
  noArmazem (BlockStore.reset linhas)
  let s ← get
  if s.offsets = [] then modify (·.dropSidecars f)
  else modify (fim (persistSidecars [] troca))

end Sidecars

/-! ## Runs -/

/-- A call, with what becomes of its writes of the sidecars. -/
inductive Chamada where
  | append (linha : String) (f : Falhas)
  | truncateFrom (height : ℕ) (f : Falhas)
  | reset (linhas : List String) (troca : Troca) (f : Falhas)
  | persistSidecars (hashList : List (Option String)) (troca : Troca)

namespace Chamada

def opera : Chamada → OpSidecars
  | append linha f => Sidecars.append linha f
  | truncateFrom height f => Sidecars.truncateFrom height f
  | reset linhas troca f => Sidecars.reset linhas troca f
  | persistSidecars hashList troca => Sidecars.persistSidecars hashList troca

/-- The store after a call, that it ended or failed. -/
def depois (c : Chamada) (s : Sidecars) : Sidecars := fim c.opera s

end Chamada

/-- The store after the calls, from an empty directory. -/
def Sidecars.depoisDe (cs : List Chamada) : Sidecars := cs.foldl (fun s c => c.depois s) {}

/-! ## What the sidecars answer -/

/-- A hash that is read at a height is the field of its line; and an index that is loaded is
the one that a scan finds. -/
structure Coerente (s : Sidecars) : Prop where
  hashAt : ∀ height hash, s.hashAt height = some hash → s.hashNoDisco height = some hash
  carga : ∀ t, s.tryLoadSidecars = some (true, t) →
    (∃ report u, BlockStore.scanJson BlockStore.aceitaTudo 0 s.toBlockStore = .ok report u) ∧
    ∀ onLine report u, BlockStore.scan onLine 0 s.toBlockStore = .ok report u →
      t.offsets = u.offsets

/-- The sidecars have room for the next record only: one record for each line of the index. -/
def Sidecars.Alinhados (s : Sidecars) : Prop :=
  (s.idx.getD []).length = idxRec * s.count ∧ (s.hashes.getD []).length = hashRec * s.count

instance (s : Sidecars) : Decidable s.Alinhados := inferInstanceAs (Decidable (_ ∧ _))

def digestDaLinha (linha : String) : Option Bytes := (hashHexFromLine linha).bind digestFromHash

/-- A record is only added to files that have one for each earlier line, with the text that
its line carries; a line without a digest, and a new file without new sidecars, find no
hashes; and hashes that a failed write gives up are removed. -/
def Sidecars.Segura (s : Sidecars) : Chamada → Prop
  | .append linha f => '\n' ∉ linha.toList →
    match digestDaLinha linha with
    | none => s.hashes = none
    | some dig =>
      if f.Nenhuma then s.Alinhados ∧ campoHash linha = some (hexEncode dig)
      else f.removeHashes = true
  | .truncateFrom height f =>
    s.count ≤ height ∨ s.hashes = none ∨ f.Nenhuma ∨ f.removeHashes = true
  | .reset linhas troca f => (∀ linha ∈ linhas, '\n' ∉ linha.toList) →
    if linhas = [] then s.hashes = none ∨ f.removeHashes = true
    else if troca = .feita ∧ ∀ linha ∈ linhas, (digestDaLinha linha).isSome then
      ∀ linha ∈ linhas, ∀ dig ∈ digestDaLinha linha, campoHash linha = some (hexEncode dig)
    else s.hashes = none
  | .persistSidecars hashList troca => troca = .feita →
    (∀ height < s.count, (s.digestNa hashList height).isSome) →
      ∀ height < s.count, ∀ dig ∈ s.digestNa hashList height,
        s.hashNoDisco height = some (hexEncode dig)

/-- Every call of a run meets the condition in the state that it finds. -/
def Seguras : List Chamada → Sidecars → Prop
  | [], _ => True
  | c :: cs, s => s.Segura c ∧ Seguras cs (c.depois s)

/-! ## One record a line -/

/-- The sidecars hold the records of the lines; one that does not exist is empty. -/
structure Registra (s : Sidecars) (linhas : List String) : Prop where
  idx : s.idx.getD [] = s.offsets.flatMap registroIdx
  hashes : ∃ digests : List Bytes, s.hashes.getD [] = digests.flatten ∧
    (∀ dig ∈ digests, dig.length = hashRec) ∧
    linhas.map campoHash = digests.map fun dig => some (hexEncode dig)

/-- The store holds its lines, each of them one line of the file. -/
structure BlockStore.Contem (s : BlockStore) (linhas : List String) : Prop
    extends s.Guarda linhas where
  semQuebra : ∀ linha ∈ linhas, '\n' ∉ linha.toList

/-- The store holds its lines, and its hashes those of the lines, unless they are gone. -/
structure EmDia (s : Sidecars) (linhas : List String) : Prop where
  guarda : s.toBlockStore.Contem linhas
  registra : s.hashes = none ∨ Registra s linhas

theorem hexDecode_length {bs dig : Bytes} (h : hexDecode bs = some dig) :
    bs.length = 2 * dig.length := by
  induction bs using hexDecode.induct generalizing dig with
  | case1 => 
    cases h
    rfl
  | case2 => cases h
  | case3 a b bs ih =>
    unfold hexDecode at h
    obtain ⟨alto, -, h⟩ := Option.bind_eq_some_iff.mp h
    obtain ⟨baixo, -, h⟩ := Option.bind_eq_some_iff.mp h
    obtain ⟨resto, hresto, h⟩ := Option.bind_eq_some_iff.mp h
    obtain rfl := Option.some.inj h
    have := ih hresto
    simp only [List.length_cons]
    omega

theorem digestFromHash_length {hash : String} {dig : Bytes} (h : digestFromHash hash = some dig) :
    dig.length = hashRec := by
  unfold digestFromHash at h
  split_ifs at h with hlen
  have h64 := hexDecode_length h
  unfold hashRec
  omega

theorem registroIdx_length (e : ℕ × ℕ) : (registroIdx e).length = idxRec := by
  rw [registroIdx, List.length_append, littleEndian_length, littleEndian_length]
  rfl

theorem lerRegistroIdx_registroIdx {e : ℕ × ℕ} (hoff : e.1 < u64Limit) (hlen : e.2 < u64Limit) :
    lerRegistroIdx (registroIdx e) = e := by
  have h8 (x : ℕ) : (littleEndian 8 x).length = 8 := littleEndian_length 8 x
  unfold lerRegistroIdx registroIdx
  rw [List.take_left' (h8 _), List.drop_left' (h8 _), List.take_of_length_le (h8 _).le,
    deLittleEndian_littleEndian hoff, deLittleEndian_littleEndian hlen]

section

variable {s : Sidecars} {linhas : List String} {b : BlockStore}

/-- With no hashes, files with room for the next record only are empty. -/
theorem EmDia.registra_of_alinhados (h : EmDia s linhas) (ha : s.Alinhados) :
    Registra s linhas := by
  rcases h.registra with hnada | hregistra
  · obtain ⟨hidx, hhashes⟩ := ha
    have hvazio : s.offsets = [] := by
      rw [hnada] at hhashes
      have hcount : hashRec * s.count = 0 := hhashes.symm
      exact List.length_eq_zero_iff.mp ((Nat.mul_eq_zero.mp hcount).resolve_left (by decide))
    have hlinhas : linhas = [] := by
      have hcount := h.guarda.count
      rw [BlockStore.count, hvazio] at hcount
      exact List.length_eq_zero_iff.mp hcount.symm
    rw [BlockStore.count, hvazio] at hidx
    subst hlinhas
    refine ⟨?_, [], ?_, fun _ hd => absurd hd List.not_mem_nil, rfl⟩
    · rw [hvazio]
      exact List.length_eq_zero_iff.mp hidx
    · rw [hnada]
      rfl
  · exact hregistra

/-- The record of the line that is appended. -/
theorem Registra.append {linha : String} {dig : Bytes} (h : Registra s linhas)
    (hcampo : campoHash linha = some (hexEncode dig)) (hlen : dig.length = hashRec)
    {e : ℕ × ℕ} (hb : b.offsets = s.offsets ++ [e]) (ok : Bool) :
    Registra ⟨b, some (s.idx.getD [] ++ registroIdx e), some (s.hashes.getD [] ++ dig), ok⟩
      (linhas ++ [linha]) := by
  obtain ⟨digests, hbytes, hdigests, hcampos⟩ := h.hashes
  refine ⟨?_, digests ++ [dig], ?_, fun d hd => ?_, ?_⟩
  · rw [Option.getD_some, h.idx, hb, List.flatMap_append, List.flatMap_singleton]
  · rw [Option.getD_some, hbytes, List.flatten_append, List.flatten_singleton]
  · rcases List.mem_append.mp hd with hd | hd
    · exact hdigests d hd
    · exact List.mem_singleton.mp hd ▸ hlen
  · rw [List.map_append, List.map_append, hcampos, List.map_singleton, List.map_singleton, hcampo]

/-- The records of the lines that are left. -/
theorem Registra.corta (h : Registra s linhas) {height : ℕ} (hheight : height ≤ linhas.length)
    (hcount : s.offsets.length = linhas.length) (hb : b.offsets = s.offsets.take height)
    (ok : Bool) :
    Registra ⟨b, s.idx.map (comTamanho 0 (idxRec * height)),
      s.hashes.map (comTamanho 0 (hashRec * height)), ok⟩ (linhas.take height) := by
  obtain ⟨digests, hbytes, hdigests, hcampos⟩ := h.hashes
  have hlen : linhas.length = digests.length := by
    have := congrArg List.length hcampos
    rwa [List.length_map, List.length_map] at this
  refine ⟨?_, digests.take height, ?_, fun d hd => hdigests d (List.mem_of_mem_take hd), ?_⟩
  · have hidx := h.idx
    rw [List.flatMap_def] at hidx
    rw [hb, List.flatMap_def, List.map_take]
    refine getD_comTamanho (by decide) (fun r hr => ?_) hidx ?_ 0
    · obtain ⟨e, -, rfl⟩ := List.mem_map.mp hr
      exact registroIdx_length e
    · rwa [List.length_map, hcount]
  · exact getD_comTamanho (by decide) hdigests hbytes (hlen ▸ hheight) 0
  · rw [List.map_take, List.map_take, hcampos]

theorem digestDaLinha_eq_some {linha : String} {dig : Bytes} (h : digestDaLinha linha = some dig) :
    ∃ hash, hashHexFromLine linha = some hash ∧ digestFromHash hash = some dig :=
  Option.bind_eq_some_iff.mp h

/-! ## The calls -/

/-- A call that leaves the store up to date, that it ends or fails. -/
abbrev Atualiza (m : OpSidecars) (s : Sidecars) : Prop :=
  Runs m s (fun _ t => ∃ linhas, EmDia t linhas) fun _ t => ∃ linhas, EmDia t linhas

theorem Atualiza.noArmazem {m : EStateM ErroDoArmazem BlockStore Unit} {f : Unit → OpSidecars}
    (h : m s.toBlockStore = .ok ⟨⟩ b) (hf : Atualiza (f ⟨⟩) { s with toBlockStore := b }) :
    Atualiza (noArmazem m >>= f) s := by
  have hrun : Eav7.noArmazem m s = .ok ⟨⟩ { s with toBlockStore := b } := by
    unfold Eav7.noArmazem
    rw [h]
  refine Runs.bind (Runs.intro (fun a t ht => ?_) fun e t ht => ?_)
  · obtain ⟨-, rfl⟩ := EStateM.Result.ok.inj (hrun.symm.trans ht)
    exact hf
  · cases hrun.symm.trans ht

/-- An operation that the store refuses at once. -/
theorem Atualiza.recusada {m : EStateM ErroDoArmazem BlockStore Unit} {f : Unit → OpSidecars}
    {e : ErroDoArmazem} (h : EmDia s linhas) (hm : m s.toBlockStore = .error e s.toBlockStore) :
    Atualiza (Eav7.noArmazem m >>= f) s := by
  have hrun : Eav7.noArmazem m s = .error e s := by
    unfold Eav7.noArmazem
    rw [hm]
  refine Runs.bind (Runs.intro (fun a t ht => ?_) fun e t ht => ?_)
  · cases hrun.symm.trans ht
  · obtain ⟨-, rfl⟩ := EStateM.Result.error.inj (hrun.symm.trans ht)
    exact ⟨linhas, h⟩

/-- Hashes that are given up and removed. -/
theorem EmDia.dropSidecars {f : Falhas} (h : s.toBlockStore.Contem linhas)
    (hremove : s.hashes = none ∨ f.removeHashes = true) : EmDia (s.dropSidecars f) linhas := by
  refine ⟨h, .inl ?_⟩
  unfold Sidecars.dropSidecars
  dsimp only
  split_ifs with hf
  · rfl
  · exact hremove.resolve_right hf

/-- The record of a line whose sidecars are in place, or hashes that were given up. -/
theorem EmDia.appendSidecar {linha hash : String} {dig : Bytes} {f : Falhas} {t : Sidecars}
    (hguarda : t.toBlockStore.Contem (linhas ++ [linha])) (hdig : digestFromHash hash = some dig)
    (hfeita : f.Nenhuma → Registra (t.appendSidecar s.fileBytes (bytesDe linha).length hash f)
      (linhas ++ [linha])) (hremove : ¬ f.Nenhuma → f.removeHashes = true) :
    EmDia (t.appendSidecar s.fileBytes (bytesDe linha).length hash f) (linhas ++ [linha]) := by
  by_cases hf : f.Nenhuma
  · refine ⟨?_, .inr (hfeita hf)⟩
    unfold Sidecars.appendSidecar
    rw [hdig]
    dsimp only
    rw [if_neg (not_not.mpr hf.1), if_neg (not_not.mpr hf.2)]
    exact hguarda
  · have hremove := hremove hf
    unfold Sidecars.appendSidecar
    rw [hdig]
    dsimp only
    split_ifs with hidx hhash
    · exact .dropSidecars hguarda (.inr hremove)
    · exact .dropSidecars hguarda (.inr hremove)
    · exact absurd ⟨not_not.mp hidx, not_not.mp hhash⟩ hf

theorem EmDia.append {linha : String} {f : Falhas} (h : EmDia s linhas)
    (hsegura : s.Segura (.append linha f)) : Atualiza (Sidecars.append linha f) s := by
  unfold Sidecars.append
  refine Runs.get_bind ?_
  by_cases hquebra : '\n' ∈ linha.toList
  · refine Atualiza.recusada h (e := .quebraDeLinhaNoConteudo) ?_
    unfold BlockStore.append
    rw [if_pos hquebra]
    rfl
  have hstore : BlockStore.append linha s.toBlockStore = .ok ⟨⟩
      ⟨some (s.file.getD [] ++ BlockStore.escrita linha),
        s.offsets ++ [(s.fileBytes, (bytesDe linha).length)]⟩ := by
    unfold BlockStore.append
    rw [if_neg hquebra]
    rfl
  have hguarda : BlockStore.Contem ⟨some (s.file.getD [] ++ BlockStore.escrita linha),
      s.offsets ++ [(s.fileBytes, (bytesDe linha).length)]⟩ (linhas ++ [linha]) := by
    obtain ⟨b, hb, hguarda⟩ := h.guarda.toGuarda.append hquebra
    obtain ⟨-, rfl⟩ := EStateM.Result.ok.inj (hstore.symm.trans hb)
    refine ⟨hguarda, fun l hl => ?_⟩
    rcases List.mem_append.mp hl with hl | hl
    · exact h.guarda.semQuebra l hl
    · exact List.mem_singleton.mp hl ▸ hquebra
  refine Atualiza.noArmazem hstore ?_
  have hsegura := hsegura hquebra
  cases hdigest : digestDaLinha linha with
  | none =>
    rw [hdigest] at hsegura
    cases hhash : hashHexFromLine linha with
    | none => exact Runs.modify_intro ⟨_, hguarda, .inl hsegura⟩
    | some hash =>
      have hdig : digestFromHash hash = none := by
        unfold digestDaLinha at hdigest
        rwa [hhash] at hdigest
      refine Runs.modify_intro ⟨linhas ++ [linha], ?_⟩
      unfold Sidecars.appendSidecar
      rw [hdig]
      exact ⟨hguarda, .inl hsegura⟩
  | some dig =>
    rw [hdigest] at hsegura
    dsimp only at hsegura
    obtain ⟨hash, hhash, hdig⟩ := digestDaLinha_eq_some hdigest
    rw [hhash]
    refine Runs.modify_intro ⟨linhas ++ [linha], ?_⟩
    refine EmDia.appendSidecar hguarda hdig (fun hf => ?_) fun hf => ?_
    · rw [if_pos hf] at hsegura
      have hregistra := h.registra_of_alinhados hsegura.1
      unfold Sidecars.appendSidecar
      rw [hdig]
      dsimp only
      rw [if_neg (not_not.mpr hf.1), if_neg (not_not.mpr hf.2), hf.1, hf.2]
      exact hregistra.append hsegura.2 (digestFromHash_length hdig) rfl true
    · rwa [if_neg hf] at hsegura

theorem EmDia.truncateFrom {height : ℕ} {f : Falhas} (h : EmDia s linhas)
    (hsegura : s.Segura (.truncateFrom height f)) :
    Atualiza (Sidecars.truncateFrom height f) s := by
  unfold Sidecars.truncateFrom
  refine Runs.get_bind (Runs.ite (fun _ => Runs.pure_intro ⟨linhas, h⟩) fun hcount => ?_)
  obtain ⟨b, hb, hcortada⟩ := h.guarda.toGuarda.truncateFrom height
  have hguarda : b.Contem (linhas.take height) :=
    ⟨hcortada, fun l hl => h.guarda.semQuebra l (List.mem_of_mem_take hl)⟩
  have hoffsets : b.offsets = s.offsets.take height := by
    rw [hguarda.offsets, h.guarda.offsets, Linhas.take_indice, List.map_take]
  refine Atualiza.noArmazem hb (Runs.modify_intro ⟨linhas.take height, ?_⟩)
  have hsegura : s.hashes = none ∨ f.Nenhuma ∨ f.removeHashes = true :=
    Or.resolve_left hsegura hcount
  unfold Sidecars.truncateSidecars
  dsimp only
  split_ifs with hidx hhashes
  · refine .dropSidecars hguarda (hsegura.imp_right fun h => h.resolve_left fun hf => ?_)
    exact hidx.2 hf.1
  · refine .dropSidecars hguarda (hsegura.imp_right fun h => h.resolve_left fun hf => ?_)
    exact hhashes.2 hf.2
  · refine ⟨hguarda, h.registra.imp (fun hnada => ?_) fun hregistra => ?_⟩
    · dsimp only
      rw [hnada]
      rfl
    · refine hregistra.corta ?_ h.guarda.count hoffsets _
      rw [← h.guarda.count]
      exact (Nat.lt_of_not_le hcount).le

theorem mapM_eq_some {α β : Type} {f : α → Option β} {as : List α} {bs : List β}
    (h : as.mapM f = some bs) : as.map f = bs.map some := by
  induction as generalizing bs with
  | nil =>
    cases h
    rfl
  | cons a as ih =>
    rw [List.mapM_cons] at h
    obtain ⟨b, hb, h⟩ := Option.bind_eq_some_iff.mp h
    obtain ⟨resto, hresto, h⟩ := Option.bind_eq_some_iff.mp h
    obtain rfl := Option.some.inj h
    rw [List.map_cons, List.map_cons, hb, ih hresto]

theorem hashNoDisco_of_guarda (h : s.toBlockStore.Contem linhas) (height : ℕ) :
    s.hashNoDisco height = linhas[height]?.bind campoHash := by
  unfold Sidecars.hashNoDisco
  rw [h.get]

theorem digestNa_length {hashList : List (Option String)} {height : ℕ} {dig : Bytes}
    (h : s.digestNa hashList height = some dig) : dig.length = hashRec := by
  unfold Sidecars.digestNa at h
  rcases Option.or_eq_some_iff.mp h with h | ⟨-, h⟩
  all_goals
    obtain ⟨hash, -, hdig⟩ := Option.bind_eq_some_iff.mp h
    exact digestFromHash_length hdig

theorem exists_mapM {α β : Type} {f : α → Option β} {as : List α}
    (h : ∀ a ∈ as, (f a).isSome) : ∃ bs, as.mapM f = some bs := by
  induction as with
  | nil => exact ⟨[], rfl⟩
  | cons a as ih =>
    obtain ⟨ha, has⟩ := List.forall_mem_cons.mp h
    obtain ⟨b, hb⟩ := Option.isSome_iff_exists.mp ha
    obtain ⟨bs, hbs⟩ := ih has
    refine ⟨b :: bs, ?_⟩
    rw [List.mapM_cons, hb, hbs]
    rfl

/-- The digests of all the heights, as the new files hold them. -/
theorem registra_of_digests {hashList : List (Option String)} {digests : List Bytes}
    (h : s.toBlockStore.Contem linhas)
    (hmonta : (List.range s.count).mapM (s.digestNa hashList) = some digests)
    (hfiel : ∀ height < s.count, ∀ dig ∈ s.digestNa hashList height,
      s.hashNoDisco height = some (hexEncode dig)) (ok : Bool) :
    Registra { s with
      idx := some (s.offsets.flatMap registroIdx)
      hashes := some digests.flatten
      sidecarsOk := ok } linhas := by
  have hdigests := mapM_eq_some hmonta
  have hlen : s.count = digests.length := by
    simpa using congrArg List.length hdigests
  have hnaAltura (i : ℕ) (hi : i < s.count) : s.digestNa hashList i = digests[i]? := by
    have hget := congrArg (fun l => l[i]?) hdigests
    rw [List.getElem?_map, List.getElem?_map, List.getElem?_range hi] at hget
    obtain ⟨dig, hdig, hget⟩ := Option.map_eq_some_iff.mp hget.symm
    rw [hdig, hget]
  refine ⟨rfl, digests, rfl, fun dig hdig => ?_, List.ext_getElem? fun i => ?_⟩
  · obtain ⟨i, hi⟩ := List.mem_iff_getElem?.mp hdig
    have hcount : i < s.count := hlen ▸ (List.getElem?_eq_some_iff.mp hi).1
    exact digestNa_length ((hnaAltura i hcount).trans hi)
  · rw [List.getElem?_map, List.getElem?_map]
    cases hi : digests[i]? with
    | none =>
      rw [List.getElem?_eq_none_iff, ← hlen, h.count] at hi
      rw [List.getElem?_eq_none hi]
      rfl
    | some dig =>
      have hcount : i < s.count := hlen ▸ (List.getElem?_eq_some_iff.mp hi).1
      have hcampo := hfiel i hcount dig ((hnaAltura i hcount).trans hi)
      rw [hashNoDisco_of_guarda h] at hcampo
      obtain ⟨linha, hlinha, hcampo⟩ := Option.bind_eq_some_iff.mp hcampo
      rw [hlinha, Option.map_some, Option.map_some, hcampo]

/-- The rewriting of the sidecars: both new files answer for the lines, or the old ones did. -/
theorem persistSidecars_atualiza {hashList : List (Option String)} {troca : Troca}
    (h : s.toBlockStore.Contem linhas)
    (hantes : (troca = .feita → ¬ ∀ height < s.count, (s.digestNa hashList height).isSome) →
      s.hashes = none ∨ Registra s linhas)
    (hsegura : s.Segura (.persistSidecars hashList troca)) :
    Atualiza (Sidecars.persistSidecars hashList troca) s := by
  unfold Sidecars.persistSidecars
  refine Runs.get_bind ?_
  cases hmonta : (List.range s.count).mapM (s.digestNa hashList) with
  | none =>
    refine Runs.throw_intro ⟨linhas, h, hantes fun _ htodos => ?_⟩
    obtain ⟨digests, hdigests⟩ := exists_mapM fun i hi => htodos i (List.mem_range.mp hi)
    cases hmonta.symm.trans hdigests
  | some digests =>
    cases troca with
    | nenhuma => exact Runs.throw_intro ⟨linhas, h, hantes nofun⟩
    | soIdx =>
      refine Runs.set_bind (Runs.throw_intro ⟨linhas, h, (hantes nofun).imp_right ?_⟩)
      exact fun hregistra => ⟨rfl, hregistra.hashes⟩
    | feita =>
      have hdigests := mapM_eq_some hmonta
      refine Runs.set_intro ⟨linhas, h, .inr (registra_of_digests h hmonta ?_ true)⟩
      refine hsegura rfl fun i hi => ?_
      have hmem := List.mem_map_of_mem (f := s.digestNa hashList) (List.mem_range.mpr hi)
      rw [hdigests] at hmem
      obtain ⟨dig, -, hdig⟩ := List.mem_map.mp hmem
      rw [← hdig]
      rfl

theorem digestDaLinha_eq (linha : String) :
    digestDaLinha linha = (campoHash linha).bind digestFromHash := by
  unfold digestDaLinha hashHexFromLine
  cases campoHash linha with
  | none => rfl
  | some hash =>
    by_cases hlen : (bytesDe hash).length = 64
    · rw [Option.filter_some_pos (by simpa using hlen)]
    · rw [Option.filter_some_neg (by simpa using hlen)]
      unfold digestFromHash
      simp [hlen]

theorem digestNa_sem_lista (h : s.toBlockStore.Contem linhas) (height : ℕ) :
    s.digestNa [] height = linhas[height]?.bind digestDaLinha := by
  unfold Sidecars.digestNa
  rw [hashNoDisco_of_guarda h]
  cases linhas[height]? with
  | none => rfl
  | some linha => exact (digestDaLinha_eq linha).symm

theorem EmDia.reset {novas : List String} {troca : Troca} {f : Falhas} (h : EmDia s linhas)
    (hsegura : s.Segura (.reset novas troca f)) : Atualiza (Sidecars.reset novas troca f) s := by
  unfold Sidecars.reset
  by_cases hquebra : ∃ linha ∈ novas, '\n' ∈ linha.toList
  · refine Atualiza.recusada h (e := .quebraDeLinhaNoConteudo) ?_
    unfold BlockStore.reset
    rw [if_pos hquebra]
    rfl
  have hquebra : ∀ linha ∈ novas, '\n' ∉ linha.toList := by simpa using hquebra
  obtain ⟨b, hb, hnova⟩ := BlockStore.reset_guarda s.toBlockStore hquebra
  have hguarda : b.Contem novas := ⟨hnova, hquebra⟩
  have hsegura := hsegura hquebra
  refine Atualiza.noArmazem hb (Runs.get_bind ?_)
  by_cases hvazio : novas = []
  · subst hvazio
    have hoffsets : b.offsets = [] := hguarda.offsets
    rw [if_pos hoffsets]
    rw [if_pos rfl] at hsegura
    exact Runs.modify_intro ⟨[], .dropSidecars hguarda hsegura⟩
  rw [if_neg hvazio] at hsegura
  have hoffsets : b.offsets ≠ [] := by
    intro hnada
    have hcount := hguarda.count
    rw [BlockStore.count, hnada] at hcount
    exact hvazio (List.length_eq_zero_iff.mp hcount.symm)
  rw [if_neg hoffsets]
  have hdigest {i : ℕ} {linha : String} (hlinha : novas[i]? = some linha) :
      Sidecars.digestNa { s with toBlockStore := b } [] i = digestDaLinha linha := by
    rw [digestNa_sem_lista hguarda, hlinha]
    rfl
  have hexiste (i : ℕ) (hi : i < b.count) : ∃ linha, novas[i]? = some linha :=
    ⟨_, List.getElem?_eq_getElem (hguarda.count ▸ hi)⟩
  refine Runs.modify_intro (Runs.fim (persistSidecars_atualiza hguarda (fun hantes => ?_) ?_))
  · refine .inl ?_
    by_cases hfeita : troca = .feita ∧ ∀ linha ∈ novas, (digestDaLinha linha).isSome
    · refine absurd (fun i hi => ?_) (hantes hfeita.1)
      obtain ⟨linha, hlinha⟩ := hexiste i hi
      rw [hdigest hlinha]
      exact hfeita.2 linha (List.mem_of_getElem? hlinha)
    · rwa [if_neg hfeita] at hsegura
  · intro hfeita htodos i hi dig hdig
    have htodas : ∀ linha ∈ novas, (digestDaLinha linha).isSome := by
      intro linha hmem
      obtain ⟨j, hlinha⟩ := List.mem_iff_getElem?.mp hmem
      have hj : j < b.count := hguarda.count ▸ (List.getElem?_eq_some_iff.mp hlinha).1
      rw [← hdigest hlinha]
      exact htodos j hj
    rw [if_pos ⟨hfeita, htodas⟩] at hsegura
    obtain ⟨linha, hlinha⟩ := hexiste i hi
    rw [hdigest hlinha] at hdig
    rw [hashNoDisco_of_guarda hguarda, hlinha]
    exact hsegura linha (List.mem_of_getElem? hlinha) dig hdig

theorem EmDia.depois {c : Chamada} (h : EmDia s linhas) (hsegura : s.Segura c) :
    ∃ linhas, EmDia (c.depois s) linhas := by
  cases c with
  | append linha f => exact (h.append hsegura).fim
  | truncateFrom height f => exact (h.truncateFrom hsegura).fim
  | reset novas troca f => exact (h.reset hsegura).fim
  | persistSidecars hashList troca =>
    exact (persistSidecars_atualiza h.guarda (fun _ => h.registra) hsegura).fim

theorem EmDia.foldl {cs : List Chamada} (h : EmDia s linhas) (hseguras : Seguras cs s) :
    ∃ linhas, EmDia (cs.foldl (fun s c => c.depois s) s) linhas := by
  induction cs generalizing s linhas with
  | nil => exact ⟨linhas, h⟩
  | cons c cs ih =>
    obtain ⟨depois, h'⟩ := h.depois hseguras.1
    exact ih h' hseguras.2

/-! ## What is read back -/

/-- A line that one scan accepts, the scan that accepts all finds too. -/
theorem fechaLinha_aceitaTodas {onLine : ℕ → String → Bool} {v w : BlockStore.Varredura} {u : Unit}
    (h : BlockStore.fechaLinha onLine v = .ok u w) :
    BlockStore.fechaLinha (fun _ _ => true) v = .ok u w := by
  unfold BlockStore.fechaLinha at h ⊢
  rw [get_bind_run] at h ⊢
  cases htexto : utf8De v.carry with
  | none =>
    rw [htexto] at h
    cases h
  | some linha =>
    rw [htexto] at h
    dsimp only at h ⊢
    by_cases hbranco : BlockStore.emBranco linha = true
    · rw [if_pos hbranco] at h ⊢
      exact h
    · rw [if_neg hbranco] at h ⊢
      rw [if_pos rfl]
      by_cases haceita : onLine v.offsets.length linha = true
      · rwa [if_pos haceita] at h
      · rw [if_neg haceita] at h
        cases h

theorem varreBytes_aceitaTodas {onLine : ℕ → String → Bool} {bs : Bytes}
    {v w : BlockStore.Varredura} {u : Unit} (h : BlockStore.varreBytes onLine bs v = .ok u w) :
    BlockStore.varreBytes (fun _ _ => true) bs v = .ok u w := by
  induction bs generalizing v with
  | nil => exact h
  | cons b bs ih =>
    obtain ⟨⟨⟩, x, hbyte, h⟩ := bind_eq_ok.mp h
    refine bind_eq_ok.mpr ⟨⟨⟩, x, ?_, ih h⟩
    unfold BlockStore.varreByte at hbyte ⊢
    split_ifs at hbyte ⊢ with hquebra
    · exact fechaLinha_aceitaTodas hbyte
    · exact hbyte

/-- A scan of the file that ends finds the index of the lines. -/
theorem offsets_of_scan {b u : BlockStore} {onLine : ℕ → String → Bool} {report : ScanReport}
    {conteudo : Bytes} (h : b.Contem linhas) (hfile : b.file = some conteudo)
    (hcheias : ∀ linha ∈ linhas, BlockStore.emBranco linha = false)
    (hscan : BlockStore.scan onLine 0 b = .ok report u) : u.offsets = b.offsets := by
  have hconteudo : conteudo = linhas.flatMap BlockStore.escrita := by
    have hbytes := h.arquivo.bytes
    rwa [hfile, Option.getD_some] at hbytes
  have hinteiras : ∀ linha ∈ linhas, BlockStore.Inteira (fun _ _ => true) linha :=
    fun linha hl => ⟨quebra_nao_ocorre (h.semQuebra linha hl), hcheias linha hl, fun _ => rfl⟩
  have hpedacos (cap : ℕ) : BlockStore.varrePedacos onLine (BlockStore.emPedacos cap [] conteudo) =
      BlockStore.varreBytes onLine conteudo := by
    rw [BlockStore.varrePedacos_eq, BlockStore.flatten_emPedacos, List.nil_append]
  unfold BlockStore.scan at hscan
  rw [if_pos rfl, modify_bind_run] at hscan
  dsimp only at hscan
  rw [get_bind_run] at hscan
  dsimp only at hscan
  rw [hfile] at hscan
  dsimp only at hscan
  rw [List.drop_zero, hpedacos] at hscan
  cases hvarre : BlockStore.varreBytes onLine conteudo
      { offsets := [], linhaInicio := 0, pos := 0 } with
  | error e v =>
    rw [hvarre] at hscan
    cases hscan
  | ok _ v =>
    rw [hvarre] at hscan
    have hlinhas := varreBytes_aceitaTodas hvarre
    rw [hconteudo] at hlinhas
    have hv := (EStateM.Result.ok.inj
      ((BlockStore.varreBytes_linhas hinteiras [] 0 0).symm.trans hlinhas)).2
    rw [← hv] at hscan
    cases hscan
    exact h.offsets.symm

/-- The places of the lines fit the index when the end of the file does. -/
theorem lt_of_mem_offsets (h : b.Contem linhas) (hlimite : b.fileBytes < u64Limit) {e : ℕ × ℕ}
    (he : e ∈ b.offsets) : e.1 < u64Limit ∧ e.2 < u64Limit := by
  rw [h.fileBytes, BlockStore.flatMap_escrita] at hlimite
  rw [h.offsets] at he
  obtain ⟨i, hi⟩ := List.mem_iff_getElem?.mp he
  rw [Linhas.getElem?_indice quebra] at hi
  obtain ⟨l, hl, rfl⟩ := Option.map_eq_some_iff.mp hi
  have hle := Linhas.recorte_le quebra hl
  constructor <;> dsimp only <;> omega

theorem hashNoDisco_of_hashAt (h : EmDia s linhas) {height : ℕ} {hash : String}
    (hhash : s.hashAt height = some hash) : s.hashNoDisco height = some hash := by
  unfold Sidecars.hashAt at hhash
  split_ifs at hhash with hcount
  obtain ⟨bs, hbs, hhash⟩ := Option.bind_eq_some_iff.mp hhash
  dsimp only at hhash
  split_ifs at hhash with hcurto
  rcases h.registra with hnada | hregistra
  · cases hnada.symm.trans hbs
  · obtain ⟨digests, hbytes, hdigests, hcampos⟩ := hregistra.hashes
    rw [hbs, Option.getD_some] at hbytes
    rw [hbytes, registro_flatten hdigests] at hhash hcurto
    rw [hashNoDisco_of_guarda h.guarda]
    have hcampo := congrArg (fun l => l[height]?) hcampos
    rw [List.getElem?_map, List.getElem?_map] at hcampo
    cases hdig : digests[height]? with
    | none =>
      rw [hdig] at hcurto
      exact absurd (by decide) hcurto
    | some dig =>
      rw [hdig] at hhash hcampo
      obtain ⟨linha, hlinha, hcampo⟩ := Option.map_eq_some_iff.mp hcampo
      rw [hlinha, ← hhash]
      exact hcampo

/-- The index that the sidecars give is the one in memory. -/
theorem offsets_of_carga (h : EmDia s linhas) (hlimite : s.fileBytes < u64Limit) {t : Sidecars}
    (hcarga : s.tryLoadSidecars = some (true, t)) :
    t.offsets = s.offsets ∧ Registra s linhas ∧ ∃ conteudo, s.file = some conteudo := by
  unfold Sidecars.tryLoadSidecars at hcarga
  split at hcarga
  case h_2 => cases hcarga
  case h_1 file idx hashes hfile hidx hhashes =>
    have hregistra : Registra s linhas := by
      rcases h.registra with hnada | hregistra
      · cases hnada.symm.trans hhashes
      · exact hregistra
    refine ⟨?_, hregistra, file, hfile⟩
    have hregistros : idx = (s.offsets.map registroIdx).flatten := by
      have hbytes := hregistra.idx
      rwa [hidx, Option.getD_some, List.flatMap_def] at hbytes
    have hlargura : ∀ r ∈ s.offsets.map registroIdx, r.length = idxRec := by
      intro r hr
      obtain ⟨e, -, rfl⟩ := List.mem_map.mp hr
      exact registroIdx_length e
    have hn : idx.length / idxRec = s.offsets.length := by
      rw [hregistros, length_flatten hlargura, List.length_map]
      exact Nat.mul_div_cancel_left _ (by decide)
    have hlidas : (List.range (idx.length / idxRec)).map
        (fun i => lerRegistroIdx (registro idxRec i idx)) = s.offsets := by
      refine List.ext_getElem? fun i => ?_
      rw [hn, hregistros, List.getElem?_map]
      cases hi : s.offsets[i]? with
      | none =>
        rw [List.getElem?_eq_none_iff] at hi
        rw [List.getElem?_eq_none (by simpa using hi)]
        rfl
      | some e =>
        obtain ⟨hoff, hlen⟩ := lt_of_mem_offsets h.guarda hlimite (List.mem_of_getElem? hi)
        rw [List.getElem?_range (List.getElem?_eq_some_iff.mp hi).1, Option.map_some,
          registro_flatten hlargura, List.getElem?_map, hi, Option.map_some, Option.getD_some,
          lerRegistroIdx_registroIdx hoff hlen]
    dsimp only at hcarga
    rw [hlidas] at hcarga
    by_cases hzero : idx.length / idxRec = 0
    · have hvazio : s.offsets = [] := List.length_eq_zero_iff.mp (hn ▸ hzero)
      rw [if_pos hzero] at hcarga
      split_ifs at hcarga
      · cases hcarga
      · obtain ⟨-, rfl⟩ := Prod.mk.inj (Option.some.inj hcarga)
        exact hvazio.symm
    · rw [if_neg hzero] at hcarga
      split_ifs at hcarga
      · cases hcarga
      · cases hcarga
      · obtain ⟨-, rfl⟩ := Prod.mk.inj (Option.some.inj hcarga)
        rfl
      · cases hcarga

theorem EmDia.coerente (h : EmDia s linhas) (hlimite : s.fileBytes < u64Limit) : Coerente s := by
  refine ⟨fun height hash => hashNoDisco_of_hashAt h, fun t hcarga => ?_⟩
  obtain ⟨hoffsets, hregistra, conteudo, hfile⟩ := offsets_of_carga h hlimite hcarga
  have hjson : ∀ linha ∈ linhas, BlockStore.LinhaJson BlockStore.aceitaTudo linha := by
    intro linha hl
    obtain ⟨digests, -, -, hcampos⟩ := hregistra.hashes
    have hmem := List.mem_map_of_mem (f := campoHash) hl
    rw [hcampos] at hmem
    obtain ⟨dig, -, hcampo⟩ := List.mem_map.mp hmem
    refine ⟨h.guarda.semQuebra linha hl, ?_⟩
    unfold campoHash at hcampo
    cases hv : parseJson linha with
    | ok v => exact ⟨v, rfl, fun _ => rfl⟩
    | error e =>
      rw [hv] at hcampo
      cases hcampo
  obtain ⟨u, hscan, -⟩ := BlockStore.scan_noArquivo h.guarda.arquivo hjson
  refine ⟨⟨_, u, hscan⟩, fun onLine report u hu => hoffsets.trans ?_⟩
  refine (offsets_of_scan h.guarda hfile (fun linha hl => ?_) hu).symm
  exact (BlockStore.inteira_of_json (hjson linha hl)).cheia

/-- Over every run whose calls all meet the condition, the sidecars answer as the file does,
as long as the end of the file fits the 64 bits of the index. -/
theorem sidecars_coerentes {cs : List Chamada} (hseguras : Seguras cs {})
    (hlimite : (Sidecars.depoisDe cs).fileBytes < u64Limit) :
    Coerente (Sidecars.depoisDe cs) := by
  have hvazio : EmDia {} [] := ⟨⟨⟨⟨rfl, fun h => absurd rfl h⟩, rfl⟩, nofun⟩, .inl rfl⟩
  obtain ⟨linhas, h⟩ := hvazio.foldl hseguras
  exact h.coerente hlimite

end

/-! ## A record out of its place -/

/-- A hash of zeros and a last digit. -/
def hashCom (c : Char) : String := String.ofList (List.replicate 63 '0' ++ [c])

def linhaCom (c : Char) : String := "\x7b\"hash\":\"" ++ hashCom c ++ "\"\x7d"

/-- The hashes of the second line do not open: both sidecars are removed, and the third line
creates them again. -/
def foraDoLugar : List Chamada :=
  [.append (linhaCom '1') {}, .append (linhaCom '2') { hashes := .naoAbriu },
    .append (linhaCom '3') {}]

/-- The third line is then read at the first height, and a boot takes it for the only one. -/
instance terceira_na_altura_zero : Fact ((Sidecars.depoisDe foraDoLugar).fileBytes < u64Limit ∧
    (Sidecars.depoisDe foraDoLugar).hashAt 0 = some (hashCom '3') ∧
    (Sidecars.depoisDe foraDoLugar).hashNoDisco 0 = some (hashCom '1') ∧
    ((Sidecars.depoisDe foraDoLugar).tryLoadSidecars.map fun r => (r.1, r.2.offsets)) =
      some (true, [(152, 75)])) where
  out := by decide +kernel

theorem sidecars_fora_do_lugar : ¬ ∀ cs, (Sidecars.depoisDe cs).fileBytes < u64Limit →
    Coerente (Sidecars.depoisDe cs) := by
  intro h
  obtain ⟨hlimite, hhash, hdisco, -⟩ := terceira_na_altura_zero.out
  have hlida := (h foraDoLugar hlimite).hashAt 0 _ hhash
  rw [hdisco] at hlida
  exact absurd (Option.some.inj hlida) (by decide +kernel)

/-- Two lines, the second one without its record, then both sidecars made again. -/
def refeitos : List Chamada :=
  [.append (linhaCom '1') {}, .append (linhaCom '2') { hashes := .parou 5 },
    .persistSidecars [] .feita, .append (linhaCom '3') {}]

/-- The lines carry the text of their digests, and the state of each call of the run has the
records that the call asks for. -/
instance linhas_com_digest : Fact ((['1', '2', '3'].all fun c =>
      (digestDaLinha (linhaCom c)).any fun dig => campoHash (linhaCom c) = some (hexEncode dig)) ∧
    (∀ height < (Sidecars.depoisDe (refeitos.take 2)).count,
      ((Sidecars.depoisDe (refeitos.take 2)).digestNa [] height).all fun dig =>
        (Sidecars.depoisDe (refeitos.take 2)).hashNoDisco height = some (hexEncode dig)) ∧
    (Sidecars.depoisDe (refeitos.take 3)).Alinhados ∧
    (Sidecars.depoisDe refeitos).hashAt 2 = some (hashCom '3') ∧
    (Sidecars.depoisDe refeitos).fileBytes < u64Limit) where
  out := by decide +kernel

theorem refeitos_em_linha : (Sidecars.depoisDe refeitos).hashAt 2 = some (hashCom '3') ∧
    Coerente (Sidecars.depoisDe refeitos) := by
  obtain ⟨hlinhas, hdisco, halinhados, hultima, hlimite⟩ := linhas_com_digest.out
  have hdigest (c : Char) (hc : c ∈ ['1', '2', '3']) : ∃ dig, digestDaLinha (linhaCom c) = some dig ∧
      campoHash (linhaCom c) = some (hexEncode dig) := by
    obtain ⟨dig, hdig, hcampo⟩ := (Option.any_eq_true _ _).mp (List.all_eq_true.mp hlinhas c hc)
    exact ⟨dig, hdig, of_decide_eq_true hcampo⟩
  refine ⟨hultima, sidecars_coerentes ⟨fun _ => ?_, fun _ => ?_,
    fun _ _ height hheight dig hdig => ?_, fun _ => ?_, trivial⟩ hlimite⟩
  · obtain ⟨dig, hdig, hcampo⟩ := hdigest '1' (by decide)
    rw [hdig]
    exact ⟨⟨rfl, rfl⟩, hcampo⟩
  · obtain ⟨dig, hdig, -⟩ := hdigest '2' (by decide)
    rw [hdig]
    rfl
  · exact of_decide_eq_true ((Option.all_eq_true _ _).mp (hdisco height hheight) dig hdig)
  · obtain ⟨dig, hdig, hcampo⟩ := hdigest '3' (by decide)
    rw [hdig]
    exact ⟨halinhados, hcampo⟩

end Eav7
