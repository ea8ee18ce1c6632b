import Eav7.Base.Fallible
import Eav7.Base.Linhas
import Eav7.LeituraJson

/-!
# The block file and its crashes

The store of blocks as a file of bytes and an index of its lines. A crash may stop an
operation after any byte; the index is lost and the next scan rebuilds it from the file.
A store holds its lines over every run in which no crash leaves an unfinished line that
the scan takes for a whole one.
-/

namespace Eav7

open Base

inductive ErroDoArmazem where
  | io
  | linhaCorrompida (height : ℕ)
  | leituraCurta (height : ℕ)
  | quebraDeLinhaNoConteudo

structure ScanReport where
  count : ℕ
  truncated : Bool
deriving DecidableEq

/-- The file, when it exists, and the offset and length of every indexed line. -/
structure BlockStore where
  file : Option Bytes := none
  offsets : List (ℕ × ℕ) := []

def chunkBytes : ℕ := 64 * 1024 * 1024

def quebra : UInt8 := 10

namespace BlockStore

/-! ## Reading -/

def count (s : BlockStore) : ℕ := s.offsets.length

/-- The end of the file according to the index. -/
def fileBytes (s : BlockStore) : ℕ := Linhas.fim s.offsets

protected def get (s : BlockStore) (height : ℕ) : Except ErroDoArmazem (Option String) :=
  match s.offsets[height]? with
  | none => .ok none
  | some (off, len) =>
    match s.file with
    | none => .error .io
    | some conteudo =>
      if conteudo.length < off + len then .error (.leituraCurta height)
      else match utf8De ((conteudo.drop off).take len) with
        | some linha => .ok (some linha)
        | none => .error (.linhaCorrompida height)

/-! ## Scanning -/

/-- A scan under way: the bytes of the line that began at `linhaInicio`, and the position
of the next byte. -/
structure Varredura where
  offsets : List (ℕ × ℕ)
  count : ℕ := 0
  carry : Bytes := []
  linhaInicio : ℕ
  pos : ℕ

abbrev Varre := EStateM ErroDoArmazem Varredura

def emBranco (linha : String) : Bool := linha.toList.all rustEspaco

section

variable (onLine : ℕ → String → Bool)

/-- A whole line: skipped when blank, indexed when accepted. -/
def fechaLinha : Varre Unit := do
  let v ← get
  match utf8De v.carry with
  | none => throw (.linhaCorrompida v.offsets.length)
  | some linha =>
    if emBranco linha then
      set { v with carry := [], linhaInicio := v.pos + 1, pos := v.pos + 1 }
    else if onLine v.offsets.length linha then
      set { v with offsets := v.offsets ++ [(v.linhaInicio, v.pos - v.linhaInicio)],
                   count := v.count + 1, carry := [], linhaInicio := v.pos + 1, pos := v.pos + 1 }
    else throw (.linhaCorrompida v.offsets.length)

/-- One byte. The line in hand is kept as bytes: a character may end in another chunk. -/
def varreByte (b : UInt8) : Varre Unit :=
  if b = quebra then fechaLinha onLine
  else modify fun v => { v with carry := v.carry ++ [b], pos := v.pos + 1 }

def varreBytes : Bytes → Varre Unit
  | [] => pure ()
  | b :: bs => do
    varreByte onLine b
    varreBytes bs

def varrePedacos : List Bytes → Varre Unit
  | [] => pure ()
  | p :: ps => do
    varreBytes onLine p
    varrePedacos ps

/-- The bytes in reads of at most `cap`. -/
def emPedacos (cap : ℕ) : (lidos : Bytes) → Bytes → List Bytes
  | lidos, [] => if lidos = [] then [] else [lidos]
  | lidos, b :: bs =>
    if lidos.length + 1 = cap then (lidos ++ [b]) :: emPedacos cap [] bs
    else emPedacos cap (lidos ++ [b]) bs

/-- What is left without a terminator: a whole line, blank, or torn by a crash. The torn
one gives the length to cut the file to. -/
def sobra (v : Varredura) : Varredura × Option ℕ :=
  if v.carry = [] then (v, none)
  else match utf8De v.carry with
    | none => (v, some v.linhaInicio)
    | some linha =>
      if emBranco linha then (v, none)
      else if onLine v.offsets.length linha then
        ({ v with offsets := v.offsets ++ [(v.linhaInicio, v.pos - v.linhaInicio)],
                  count := v.count + 1 }, none)
      else (v, some v.linhaInicio)

/-- Indexes the lines of the file from a byte on. -/
def scan (byteStart : ℕ) : EStateM ErroDoArmazem BlockStore ScanReport := do
  if byteStart = 0 then modify fun s => { s with offsets := [] }
  let s ← get
  match s.file with
  | none => return ⟨0, false⟩
  | some conteudo =>
    let cap := max (min (conteudo.length - byteStart) chunkBytes) 1
    let inicio : Varredura := { offsets := s.offsets, linhaInicio := byteStart, pos := byteStart }
    match varrePedacos onLine (emPedacos cap [] (conteudo.drop byteStart)) inicio with
    | .error e v => do
      set { s with offsets := v.offsets }
      throw e
    | .ok _ v =>
      let (v, truncarEm) := sobra onLine v
      set ({ file := some (truncarEm.elim conteudo fun em => conteudo.take em),
             offsets := v.offsets } : BlockStore)
      return ⟨v.count, truncarEm.isSome⟩

end

/-- A line passes when it is JSON that the caller accepts. -/
def aceita (onValue : ℕ → JsonValue → Bool) (altura : ℕ) (linha : String) : Bool :=
  match parseJson linha with
  | .ok v => onValue altura v
  | .error _ => false

def scanJson (onValue : ℕ → JsonValue → Bool) (byteStart : ℕ) :
    EStateM ErroDoArmazem BlockStore ScanReport := scan (aceita onValue) byteStart

/-! ## Writing -/

/-- The bytes that an append writes, in order: the line, then its terminator. -/
def escrita (linha : String) : Bytes := bytesDe linha ++ [quebra]

def append (linha : String) : EStateM ErroDoArmazem BlockStore Unit := do
  if '\n' ∈ linha.toList then throw .quebraDeLinhaNoConteudo
  modify fun s =>
    { file := some (s.file.getD [] ++ escrita linha),
      offsets := s.offsets ++ [(s.fileBytes, (bytesDe linha).length)] }

def truncateFrom (height : ℕ) : EStateM ErroDoArmazem BlockStore Unit := do
  let s ← get
  match s.offsets[height]? with
  | none => return
  | some (off, _) =>
    match s.file with
    | none => throw .io
    | some conteudo =>
      set ({ file := some (conteudo.take off), offsets := s.offsets.take height } : BlockStore)

/-- Writes the whole file again, beside the old one, and renames it. -/
def reset (linhas : List String) : EStateM ErroDoArmazem BlockStore Unit := do
  if ∃ linha ∈ linhas, '\n' ∈ linha.toList then throw .quebraDeLinhaNoConteudo
  set ({ file := some (linhas.flatMap escrita),
         offsets := Linhas.indice 0 (linhas.map bytesDe) } : BlockStore)

/-! ## What a scan finds -/

/-- A line that a scan indexes wherever it stands. -/
structure Inteira (onLine : ℕ → String → Bool) (linha : String) : Prop where
  semQuebra : quebra ∉ bytesDe linha
  cheia : emBranco linha = false
  aceita : ∀ altura, onLine altura linha = true

/-- Bytes that a scan cuts off: no text, or a text that it refuses. -/
def Rasgada (onLine : ℕ → String → Bool) (bs : Bytes) : Prop :=
  ∀ linha, utf8De bs = some linha → emBranco linha = false ∧ ∀ altura, onLine altura linha = false

/-- A scan between two lines. -/
def entreLinhas (offsets : List (ℕ × ℕ)) (count pos : ℕ) : Varredura :=
  { offsets := offsets, count := count, linhaInicio := pos, pos := pos }

/-- The store of the lines, written at once. -/
def comLinhas (linhas : List String) : BlockStore :=
  { file := some (linhas.flatMap escrita), offsets := Linhas.indice 0 (linhas.map bytesDe) }

/-- A scan at the end of a file of lines and an unfinished one. -/
def aoFim (linhas : List String) (bs : Bytes) : Varredura :=
  { offsets := Linhas.indice 0 (linhas.map bytesDe), count := linhas.length, carry := bs
    linhaInicio := (linhas.flatMap escrita).length
    pos := (linhas.flatMap escrita).length + bs.length }

section

variable {onLine : ℕ → String → Bool} {linha : String} {linhas : List String} {bs : Bytes}
  {v : Varredura}

theorem varreBytes_append (bs cs : Bytes) :
    varreBytes onLine (bs ++ cs) = (varreBytes onLine bs >>= fun _ => varreBytes onLine cs) := by
  induction bs with
  | nil => rfl
  | cons b bs ih => simp [varreBytes, ih]

theorem varrePedacos_eq (ps : List Bytes) :
    varrePedacos onLine ps = varreBytes onLine ps.flatten := by
  induction ps with
  | nil => rfl
  | cons p ps ih => rw [varrePedacos, List.flatten_cons, varreBytes_append, ih]

theorem flatten_emPedacos (cap : ℕ) (lidos bs : Bytes) :
    (emPedacos cap lidos bs).flatten = lidos ++ bs := by
  induction bs generalizing lidos with
  | nil => by_cases h : lidos = [] <;> simp [emPedacos, h]
  | cons b bs ih =>
    unfold emPedacos
    split_ifs <;> simp [ih]

/-- Bytes without a terminator wait for theirs. -/
theorem varreBytes_semQuebra (h : quebra ∉ bs) : varreBytes onLine bs v =
    .ok () { v with carry := v.carry ++ bs, pos := v.pos + bs.length } := by
  induction bs generalizing v with
  | nil => simp [varreBytes, pure, EStateM.pure]
  | cons b bs ih =>
    obtain ⟨hb, hbs⟩ := not_or.mp (mt List.mem_cons.mpr h)
    refine bind_eq_ok.mpr ⟨(), { v with carry := v.carry ++ [b], pos := v.pos + 1 }, ?_, ?_⟩
    · rw [varreByte, if_neg (Ne.symm hb)]
      rfl
    · have hpos : v.pos + 1 + bs.length = v.pos + (bs.length + 1) := by omega
      rw [ih hbs]
      simp only [List.append_assoc, List.singleton_append, List.length_cons, hpos]

theorem fechaLinha_aceita (htexto : utf8De v.carry = some linha) (hcheia : emBranco linha = false)
    (haceita : onLine v.offsets.length linha = true) : fechaLinha onLine v = .ok ()
      { v with offsets := v.offsets ++ [(v.linhaInicio, v.pos - v.linhaInicio)],
               count := v.count + 1, carry := [], linhaInicio := v.pos + 1, pos := v.pos + 1 } := by
  have hbranco : ¬ emBranco linha = true := Bool.not_eq_true _ ▸ hcheia
  unfold fechaLinha
  rw [get_bind_run, htexto]
  dsimp only
  rw [if_neg hbranco, if_pos haceita]
  rfl

/-- A whole line is indexed. -/
theorem varreBytes_linha (h : Inteira onLine linha) (offsets : List (ℕ × ℕ)) (n pos : ℕ) :
    varreBytes onLine (escrita linha) (entreLinhas offsets n pos) = .ok ()
      (entreLinhas (offsets ++ [(pos, (bytesDe linha).length)]) (n + 1)
        (pos + (bytesDe linha).length + 1)) := by
  rw [escrita, varreBytes_append]
  refine bind_eq_ok.mpr ⟨(), _, varreBytes_semQuebra h.semQuebra, ?_⟩
  refine bind_eq_ok.mpr ⟨(), _, ?_, rfl⟩
  rw [varreByte, if_pos rfl, fechaLinha_aceita (utf8De_bytesDe linha) h.cheia (h.aceita _)]
  simp [entreLinhas]

theorem varreBytes_linhas (h : ∀ linha ∈ linhas, Inteira onLine linha) (offsets : List (ℕ × ℕ))
    (n pos : ℕ) : varreBytes onLine (linhas.flatMap escrita) (entreLinhas offsets n pos) = .ok ()
      (entreLinhas (offsets ++ Linhas.indice pos (linhas.map bytesDe)) (n + linhas.length)
        (pos + (linhas.flatMap escrita).length)) := by
  induction linhas generalizing offsets n pos with
  | nil => simp [varreBytes, Linhas.indice, pure, EStateM.pure]
  | cons linha linhas ih =>
    obtain ⟨hlinha, hlinhas⟩ := List.forall_mem_cons.mp h
    rw [List.flatMap_cons, varreBytes_append]
    refine bind_eq_ok.mpr ⟨(), _, varreBytes_linha hlinha offsets n pos, ?_⟩
    rw [ih hlinhas]
    simp only [escrita, List.map_cons, Linhas.indice, List.append_assoc, List.singleton_append,
      List.length_append, List.length_cons]
    congr 2 <;> omega

/-- Whole lines and a piece without a terminator are scanned as lines and a remainder. -/
theorem scan_eq {s : BlockStore} (h : ∀ linha ∈ linhas, Inteira onLine linha)
    (hfile : s.file = some (linhas.flatMap escrita ++ bs)) (hbs : quebra ∉ bs)
    {w : Varredura} {truncarEm : Option ℕ} (hsobra : sobra onLine (aoFim linhas bs) = (w, truncarEm)) :
    scan onLine 0 s = .ok ⟨w.count, truncarEm.isSome⟩
      { file := some (truncarEm.elim (linhas.flatMap escrita ++ bs)
          fun em => (linhas.flatMap escrita ++ bs).take em), offsets := w.offsets } := by
  have hvarre : ∀ cap, varrePedacos onLine (emPedacos cap [] (linhas.flatMap escrita ++ bs))
      (entreLinhas [] 0 0) = .ok () (aoFim linhas bs) := by
    intro cap
    rw [varrePedacos_eq, flatten_emPedacos, List.nil_append, varreBytes_append]
    refine bind_eq_ok.mpr ⟨(), _, varreBytes_linhas h [] 0 0, ?_⟩
    rw [varreBytes_semQuebra hbs]
    simp [entreLinhas, aoFim]
  unfold scan
  rw [if_pos rfl, modify_bind_run]
  dsimp only
  rw [get_bind_run]
  dsimp only
  rw [hfile]
  dsimp only
  rw [List.drop_zero, show ({ offsets := [], linhaInicio := 0, pos := 0 } : Varredura) =
    entreLinhas [] 0 0 from rfl, hvarre]
  dsimp only
  rw [hsobra]
  rfl

theorem scan_linhas {s : BlockStore} (h : ∀ linha ∈ linhas, Inteira onLine linha)
    (hfile : s.file = some (linhas.flatMap escrita)) :
    scan onLine 0 s = .ok ⟨linhas.length, false⟩ (comLinhas linhas) := by
  have hfile' : s.file = some (linhas.flatMap escrita ++ []) := by rw [hfile, List.append_nil]
  have hscan := scan_eq h hfile' List.not_mem_nil rfl
  rwa [List.append_nil] at hscan

/-- A torn line is cut off. -/
theorem scan_rasgada {s : BlockStore} (h : ∀ linha ∈ linhas, Inteira onLine linha)
    (hfile : s.file = some (linhas.flatMap escrita ++ bs)) (hbs : quebra ∉ bs) (hne : bs ≠ [])
    (hrasga : Rasgada onLine bs) : scan onLine 0 s =
      .ok ⟨linhas.length, true⟩ (comLinhas linhas) := by
  have hsobra : ∀ v : Varredura, v.carry = bs → sobra onLine v = (v, some v.linhaInicio) := by
    intro v hv
    unfold sobra
    rw [hv, if_neg hne]
    cases ht : utf8De bs with
    | none => rfl
    | some linha =>
      obtain ⟨hcheia, hrecusa⟩ := hrasga linha ht
      simp [hcheia, hrecusa]
  have hscan := scan_eq h hfile hbs (hsobra _ rfl)
  rw [hscan, Option.elim_some, aoFim, List.take_left]
  rfl

end

/-! ## What a store holds -/

/-- A text line that the parser and the caller accept. -/
def LinhaJson (onValue : ℕ → JsonValue → Bool) (linha : String) : Prop :=
  '\n' ∉ linha.toList ∧ ∃ v, parseJson linha = .ok v ∧ ∀ altura, onValue altura v = true

/-- The file is the lines. -/
structure NoArquivo (file : Option Bytes) (linhas : List String) : Prop where
  bytes : file.getD [] = linhas.flatMap escrita
  existe : linhas ≠ [] → file ≠ none

/-- The file and the index are those of the lines. -/
structure Guarda (s : BlockStore) (linhas : List String) : Prop where
  arquivo : NoArquivo s.file linhas
  offsets : s.offsets = Linhas.indice 0 (linhas.map bytesDe)

theorem guarda_comLinhas (linhas : List String) : Guarda (comLinhas linhas) linhas :=
  ⟨⟨rfl, fun _ => Option.some_ne_none _⟩, rfl⟩

/-- The store answers as one that holds the lines, and a scan finds them again. -/
structure Mostra (onValue : ℕ → JsonValue → Bool) (s : BlockStore) (linhas : List String) :
    Prop where
  count : s.count = linhas.length
  get : ∀ height, s.get height = .ok linhas[height]?
  scan : ∃ s', scanJson onValue 0 s = .ok ⟨linhas.length, false⟩ s' ∧
    s'.count = linhas.length ∧ ∀ height, s'.get height = .ok linhas[height]?

section

variable {onValue : ℕ → JsonValue → Bool} {s : BlockStore} {linha : String}
  {linhas : List String} {file : Option Bytes}

theorem flatMap_escrita (linhas : List String) :
    linhas.flatMap escrita = Linhas.escritas quebra (linhas.map bytesDe) := by
  induction linhas with
  | nil => rfl
  | cons linha linhas ih => simp [Linhas.escritas, escrita, ih]

theorem inteira_of_json (h : LinhaJson onValue linha) : Inteira (aceita onValue) linha := by
  obtain ⟨hquebra, v, hv, haceita⟩ := h
  refine ⟨quebra_nao_ocorre hquebra, ?_, fun altura => ?_⟩
  · by_contra hbranco
    obtain ⟨e, he⟩ := parseJson_em_branco (Bool.not_eq_false _ ▸ hbranco)
    rw [he] at hv
    cases hv
  · unfold aceita
    rw [hv]
    exact haceita altura

theorem Guarda.count (h : Guarda s linhas) : s.count = linhas.length := by
  rw [BlockStore.count, h.offsets, Linhas.length_indice, List.length_map]

theorem Guarda.fileBytes (h : Guarda s linhas) :
    s.fileBytes = (linhas.flatMap escrita).length := by
  rw [BlockStore.fileBytes, h.offsets, Linhas.fim_indice quebra, flatMap_escrita]

theorem Guarda.get (h : Guarda s linhas) (height : ℕ) : s.get height = .ok linhas[height]? := by
  have hindice := Linhas.getElem?_indice quebra 0 (linhas.map bytesDe) height
  rw [← h.offsets] at hindice
  unfold BlockStore.get
  cases hl : linhas[height]? with
  | none =>
    rw [List.getElem?_map, hl] at hindice
    rw [hindice]
    rfl
  | some linha =>
    have hmap : (linhas.map bytesDe)[height]? = some (bytesDe linha) := by
      rw [List.getElem?_map, hl]
      rfl
    have hne : linhas ≠ [] := by
      rintro rfl
      cases hl
    obtain ⟨conteudo, hfile⟩ := Option.ne_none_iff_exists'.mp (h.arquivo.existe hne)
    have hbytes := h.arquivo.bytes
    rw [hfile, Option.getD_some, flatMap_escrita] at hbytes
    rw [hindice, hmap, hfile, Option.map_some, hbytes]
    dsimp only
    rw [Nat.zero_add, if_neg (not_lt.mpr (Linhas.recorte_le quebra hmap)),
      Linhas.recorte quebra hmap, utf8De_bytesDe]

/-- A scan of the file finds its lines, whatever the index was. -/
theorem scan_noArquivo (h : NoArquivo s.file linhas)
    (hjson : ∀ linha ∈ linhas, LinhaJson onValue linha) : ∃ s',
      scanJson onValue 0 s = .ok ⟨linhas.length, false⟩ s' ∧ Guarda s' linhas := by
  cases hfile : s.file with
  | none =>
    have hvazio : linhas = [] := by
      by_contra hne
      exact h.existe hne hfile
    subst hvazio
    refine ⟨{ s with offsets := [] }, ?_, h, rfl⟩
    unfold scanJson scan
    rw [if_pos rfl, modify_bind_run]
    dsimp only
    rw [get_bind_run]
    dsimp only
    rw [hfile]
    rfl
  | some conteudo =>
    have hbytes := h.bytes
    rw [hfile, Option.getD_some] at hbytes
    exact ⟨comLinhas linhas, scan_linhas (fun linha hl => inteira_of_json (hjson linha hl))
      (hfile.trans (congrArg some hbytes)), guarda_comLinhas linhas⟩

theorem Guarda.mostra (h : Guarda s linhas) (hjson : ∀ linha ∈ linhas, LinhaJson onValue linha) :
    Mostra onValue s linhas := by
  obtain ⟨s', hscan, h'⟩ := scan_noArquivo h.arquivo hjson
  exact ⟨h.count, h.get, s', hscan, h'.count, h'.get⟩

/-! ## Runs with crashes -/

/-- An operation that ends, a scan, or an operation that a crash stops and the scan of a
fresh store after it: an append after some bytes, the others before or after their one
change of the file. -/
inductive Evento where
  | append (linha : String)
  | truncateFrom (height : ℕ)
  | reset (linhas : List String)
  | scan
  | caiNoAppend (linha : String) (gravados : ℕ)
  | caiNoTruncate (height : ℕ) (cortou : Bool)
  | caiNoReset (linhas : List String) (trocou : Bool)

/-- The file after a crash. -/
def arquivoCortado (s : BlockStore) (height : ℕ) : Option Bytes :=
  match s.offsets[height]? with
  | none => s.file
  | some (off, _) => s.file.map (·.take off)

/-- A crash leaves the file alone; a fresh store scans it. -/
def reabre (onValue : ℕ → JsonValue → Bool) (file : Option Bytes) :
    EStateM ErroDoArmazem BlockStore Unit := do
  set ({ file := file } : BlockStore)
  let _ ← scanJson onValue 0
  return

def passo (onValue : ℕ → JsonValue → Bool) : Evento → EStateM ErroDoArmazem BlockStore Unit
  | .append linha => append linha
  | .truncateFrom height => truncateFrom height
  | .reset linhas => reset linhas
  | .scan => do
    let _ ← scanJson onValue 0
    return
  | .caiNoAppend linha gravados => do
    let s ← get
    reabre onValue (some (s.file.getD [] ++ (escrita linha).take gravados))
  | .caiNoTruncate height cortou => do
    let s ← get
    reabre onValue (if cortou then arquivoCortado s height else s.file)
  | .caiNoReset linhas trocou => do
    let s ← get
    reabre onValue (if trocou then some (linhas.flatMap escrita) else s.file)

/-- The lines that an event may leave: those of the operation, or, after a crash in it,
those before. -/
def Segue : Evento → List String → List String → Prop
  | .append linha, linhas, depois => depois = linhas ++ [linha]
  | .truncateFrom height, linhas, depois => depois = linhas.take height
  | .reset novas, _, depois => depois = novas
  | .scan, linhas, depois => depois = linhas
  | .caiNoAppend linha _, linhas, depois => depois = linhas ∨ depois = linhas ++ [linha]
  | .caiNoTruncate height _, linhas, depois => depois = linhas ∨ depois = linhas.take height
  | .caiNoReset novas _, linhas, depois => depois = linhas ∨ depois = novas

/-- Only JSON lines are written. -/
def Valido (onValue : ℕ → JsonValue → Bool) : Evento → Prop
  | .append linha => LinhaJson onValue linha
  | .caiNoAppend linha _ => LinhaJson onValue linha
  | .reset linhas => ∀ linha ∈ linhas, LinhaJson onValue linha
  | .caiNoReset linhas _ => ∀ linha ∈ linhas, LinhaJson onValue linha
  | .truncateFrom _ => True
  | .scan => True
  | .caiNoTruncate _ _ => True

/-- A crash in an append wrote nothing, everything, or a piece that a scan cuts off. -/
def Reparavel (onValue : ℕ → JsonValue → Bool) : Evento → Prop
  | .caiNoAppend linha gravados => gravados = 0 ∨ (escrita linha).length ≤ gravados ∨
      Rasgada (aceita onValue) ((escrita linha).take gravados)
  | _ => True

/-- Every event of the run ends without an error, and the store answers as one that holds
the lines. -/
def Cumpre (onValue : ℕ → JsonValue → Bool) : List Evento → BlockStore → List String → Prop
  | [], s, linhas => Mostra onValue s linhas
  | e :: es, s, linhas => Mostra onValue s linhas ∧ ∃ s' depois,
      passo onValue e s = .ok () s' ∧ Segue e linhas depois ∧ Cumpre onValue es s' depois

theorem reabre_noArquivo (h : NoArquivo file linhas)
    (hjson : ∀ linha ∈ linhas, LinhaJson onValue linha) (s : BlockStore) :
    ∃ s', reabre onValue file s = .ok () s' ∧ Guarda s' linhas := by
  obtain ⟨s', hscan, h'⟩ := scan_noArquivo (s := { file := file }) h hjson
  refine ⟨s', ?_, h'⟩
  unfold reabre
  rw [set_bind_run]
  exact bind_eq_ok.mpr ⟨_, s', hscan, rfl⟩

theorem quebra_nao_ocorre_take (h : '\n' ∉ linha.toList) (gravados : ℕ) :
    (escrita linha).length ≤ gravados ∨ quebra ∉ (escrita linha).take gravados := by
  rcases le_or_gt (escrita linha).length gravados with htodos | hparte
  · exact .inl htodos
  · rw [escrita, List.length_append, List.length_singleton] at hparte
    refine .inr fun hmem => quebra_nao_ocorre h ?_
    rw [escrita, List.take_append_of_le_length (by omega)] at hmem
    exact List.mem_of_mem_take hmem

/-- A torn piece after the lines is cut off. -/
theorem reabre_rasgada (h : NoArquivo file linhas)
    (hjson : ∀ linha ∈ linhas, LinhaJson onValue linha) {bs : Bytes} (hne : bs ≠ [])
    (hrasga : Rasgada (aceita onValue) bs) (hbs : quebra ∉ bs) (s : BlockStore) :
    ∃ s', reabre onValue (some (file.getD [] ++ bs)) s = .ok () s' ∧ Guarda s' linhas := by
  have hfile : some (file.getD [] ++ bs) = some (linhas.flatMap escrita ++ bs) := by rw [h.bytes]
  have hscan := scan_rasgada (s := { file := some (file.getD [] ++ bs) })
    (fun linha hl => inteira_of_json (hjson linha hl)) hfile hbs hne hrasga
  refine ⟨comLinhas linhas, ?_, guarda_comLinhas linhas⟩
  unfold reabre
  rw [set_bind_run]
  exact bind_eq_ok.mpr ⟨_, _, hscan, rfl⟩

theorem noArquivo_append (h : NoArquivo file linhas) (linha : String) :
    NoArquivo (some (file.getD [] ++ escrita linha)) (linhas ++ [linha]) := by
  refine ⟨?_, fun _ => Option.some_ne_none _⟩
  rw [Option.getD_some, h.bytes, List.flatMap_append, List.flatMap_singleton]

theorem Guarda.append (h : Guarda s linhas) (hquebra : '\n' ∉ linha.toList) : ∃ s',
    BlockStore.append linha s = .ok () s' ∧ Guarda s' (linhas ++ [linha]) := by
  refine ⟨⟨some (s.file.getD [] ++ escrita linha),
    s.offsets ++ [(s.fileBytes, (bytesDe linha).length)]⟩, ?_, noArquivo_append h.arquivo linha, ?_⟩
  · unfold BlockStore.append
    rw [if_neg hquebra]
    rfl
  · rw [h.offsets, List.map_append, Linhas.indice_append quebra, h.fileBytes, flatMap_escrita,
      Nat.zero_add]
    rfl

theorem arquivoCortado_eq (h : Guarda s linhas) (height : ℕ) :
    NoArquivo (arquivoCortado s height) (linhas.take height) := by
  have hindice := Linhas.getElem?_indice quebra 0 (linhas.map bytesDe) height
  rw [← h.offsets] at hindice
  unfold arquivoCortado
  rw [hindice, List.getElem?_map]
  cases hl : linhas[height]? with
  | none =>
    rw [List.take_of_length_le (List.getElem?_eq_none_iff.mp hl)]
    exact h.arquivo
  | some linha =>
    have hne : linhas ≠ [] := by
      rintro rfl
      cases hl
    obtain ⟨conteudo, hfile⟩ := Option.ne_none_iff_exists'.mp (h.arquivo.existe hne)
    have hbytes := h.arquivo.bytes
    rw [hfile, Option.getD_some] at hbytes
    rw [hfile, Option.map_some, Option.map_some, ← List.map_take, Nat.zero_add]
    refine ⟨?_, fun _ => Option.some_ne_none _⟩
    dsimp only
    rw [Option.map_some, Option.getD_some, hbytes, flatMap_escrita, flatMap_escrita, List.map_take]
    exact Linhas.take_escritas quebra _ height

theorem Guarda.truncateFrom (h : Guarda s linhas) (height : ℕ) : ∃ s',
    BlockStore.truncateFrom height s = .ok () s' ∧ Guarda s' (linhas.take height) := by
  have hcorta := arquivoCortado_eq h height
  unfold arquivoCortado at hcorta
  unfold BlockStore.truncateFrom
  rw [get_bind_run]
  cases hoff : s.offsets[height]? with
  | none =>
    rw [hoff] at hcorta
    have hlen := List.getElem?_eq_none_iff.mp hoff
    rw [h.offsets, Linhas.length_indice, List.length_map] at hlen
    refine ⟨s, rfl, hcorta, ?_⟩
    rw [List.take_of_length_le hlen]
    exact h.offsets
  | some e =>
    rw [hoff] at hcorta
    cases hfile : s.file with
    | none =>
      have hvazio : linhas = [] := by
        by_contra hne
        exact h.arquivo.existe hne hfile
      subst hvazio
      rw [h.offsets] at hoff
      cases hoff
    | some conteudo =>
      rw [hfile] at hcorta
      refine ⟨_, rfl, hcorta, ?_⟩
      rw [h.offsets, Linhas.take_indice, List.map_take]

theorem reset_guarda (s : BlockStore) (hquebra : ∀ linha ∈ linhas, '\n' ∉ linha.toList) : ∃ s',
    BlockStore.reset linhas s = .ok () s' ∧ Guarda s' linhas := by
  refine ⟨comLinhas linhas, ?_, guarda_comLinhas linhas⟩
  unfold BlockStore.reset
  rw [if_neg (by simpa using hquebra)]
  rfl

/-- A crash in an append leaves the lines before it, or those with the new one. -/
theorem Guarda.caiNoAppend (h : Guarda s linhas)
    (hjson : ∀ linha ∈ linhas, LinhaJson onValue linha) (hlinha : LinhaJson onValue linha)
    {gravados : ℕ} (hrep : Reparavel onValue (.caiNoAppend linha gravados)) : ∃ s' depois,
      reabre onValue (some (s.file.getD [] ++ (escrita linha).take gravados)) s = .ok () s' ∧
      (depois = linhas ∨ depois = linhas ++ [linha]) ∧ Guarda s' depois := by
  have hnada : gravados = 0 ∨ gravados ≠ 0 := Classical.em _
  rcases hnada with rfl | hpos
  · rw [List.take_zero, List.append_nil]
    have harq : NoArquivo (some (s.file.getD [])) linhas :=
      ⟨h.arquivo.bytes, fun _ => Option.some_ne_none _⟩
    obtain ⟨s', hrun, h'⟩ := reabre_noArquivo harq hjson s
    exact ⟨s', linhas, hrun, .inl rfl, h'⟩
  rcases quebra_nao_ocorre_take hlinha.1 gravados with htodos | hbs
  · rw [List.take_of_length_le htodos]
    obtain ⟨s', hrun, h'⟩ := reabre_noArquivo (noArquivo_append h.arquivo linha)
      (fun l hl => (List.mem_append.mp hl).elim (hjson l)
        fun hl => List.mem_singleton.mp hl ▸ hlinha) s
    exact ⟨s', linhas ++ [linha], hrun, .inr rfl, h'⟩
  · have hne : (escrita linha).take gravados ≠ [] := by
      simp [escrita, hpos]
    have hrasga : Rasgada (aceita onValue) ((escrita linha).take gravados) := by
      rcases hrep with hzero | htodos | hrasga
      · exact absurd hzero hpos
      · rw [List.take_of_length_le htodos] at hbs
        exact absurd (List.mem_append_right _ (List.mem_singleton_self _)) hbs
      · exact hrasga
    obtain ⟨s', hrun, h'⟩ := reabre_rasgada h.arquivo hjson hne hrasga hbs s
    exact ⟨s', linhas, hrun, .inl rfl, h'⟩

/-- One event keeps the store and the lines together. -/
theorem Guarda.passo (h : Guarda s linhas) (hjson : ∀ linha ∈ linhas, LinhaJson onValue linha)
    {e : Evento} (hval : Valido onValue e) (hrep : Reparavel onValue e) : ∃ s' depois,
      BlockStore.passo onValue e s = .ok () s' ∧ Segue e linhas depois ∧ Guarda s' depois ∧
      ∀ linha ∈ depois, LinhaJson onValue linha := by
  have hmais : ∀ linha, LinhaJson onValue linha → ∀ l ∈ linhas ++ [linha], LinhaJson onValue l :=
    fun linha hlinha l hl => (List.mem_append.mp hl).elim (hjson l)
      fun hl => List.mem_singleton.mp hl ▸ hlinha
  have hmenos : ∀ height, ∀ l ∈ linhas.take height, LinhaJson onValue l :=
    fun height l hl => hjson l (List.mem_of_mem_take hl)
  cases e with
  | append linha =>
    obtain ⟨s', hrun, h'⟩ := h.append hval.1
    exact ⟨s', _, hrun, rfl, h', hmais linha hval⟩
  | truncateFrom height =>
    obtain ⟨s', hrun, h'⟩ := h.truncateFrom height
    exact ⟨s', _, hrun, rfl, h', hmenos height⟩
  | reset novas =>
    obtain ⟨s', hrun, h'⟩ := reset_guarda s fun linha hl => (hval linha hl).1
    exact ⟨s', _, hrun, rfl, h', hval⟩
  | scan =>
    obtain ⟨s', hscan, h'⟩ := scan_noArquivo h.arquivo hjson
    exact ⟨s', _, bind_eq_ok.mpr ⟨_, s', hscan, rfl⟩, rfl, h', hjson⟩
  | caiNoAppend linha gravados =>
    obtain ⟨s', depois, hrun, hdepois, h'⟩ := h.caiNoAppend hjson hval hrep
    refine ⟨s', depois, by rw [BlockStore.passo, get_bind_run]; exact hrun, hdepois, h', ?_⟩
    rcases hdepois with rfl | rfl
    · exact hjson
    · exact hmais linha hval
  | caiNoTruncate height cortou =>
    rw [BlockStore.passo, get_bind_run]
    cases cortou with
    | false =>
      obtain ⟨s', hrun, h'⟩ := reabre_noArquivo h.arquivo hjson s
      exact ⟨s', _, hrun, .inl rfl, h', hjson⟩
    | true =>
      obtain ⟨s', hrun, h'⟩ := reabre_noArquivo (arquivoCortado_eq h height) (hmenos height) s
      exact ⟨s', _, hrun, .inr rfl, h', hmenos height⟩
  | caiNoReset novas trocou =>
    rw [BlockStore.passo, get_bind_run]
    cases trocou with
    | false =>
      obtain ⟨s', hrun, h'⟩ := reabre_noArquivo h.arquivo hjson s
      exact ⟨s', _, hrun, .inl rfl, h', hjson⟩
    | true =>
      obtain ⟨s', hrun, h'⟩ := reabre_noArquivo
        (⟨rfl, fun _ => Option.some_ne_none _⟩ : NoArquivo (some (novas.flatMap escrita)) novas)
        hval s
      exact ⟨s', _, hrun, .inr rfl, h', hval⟩

theorem Guarda.cumpre (h : Guarda s linhas) (hjson : ∀ linha ∈ linhas, LinhaJson onValue linha)
    {es : List Evento} (hval : ∀ e ∈ es, Valido onValue e)
    (hrep : ∀ e ∈ es, Reparavel onValue e) : Cumpre onValue es s linhas := by
  induction es generalizing s linhas with
  | nil => exact h.mostra hjson
  | cons e es ih =>
    obtain ⟨hval₀, hval⟩ := List.forall_mem_cons.mp hval
    obtain ⟨hrep₀, hrep⟩ := List.forall_mem_cons.mp hrep
    obtain ⟨s', depois, hrun, hsegue, h', hjson'⟩ := h.passo hjson hval₀ hrep₀
    exact ⟨h.mostra hjson, s', depois, hrun, hsegue, ih h' hjson' hval hrep⟩

/-- Over every run in which no crash leaves an unfinished line that a scan takes for a whole
one, the store holds the lines of its appends, and at most those of the interrupted ones. -/
theorem armazem_cumpre {es : List Evento} (hval : ∀ e ∈ es, Valido onValue e)
    (hrep : ∀ e ∈ es, Reparavel onValue e) : Cumpre onValue es {} [] :=
  Guarda.cumpre ⟨⟨rfl, fun h => absurd rfl h⟩, rfl⟩ (fun _ h => absurd h List.not_mem_nil) hval hrep

/-! ## A line without its terminator -/

def aceitaTudo (_ : ℕ) (_ : JsonValue) : Bool := true

theorem linhaJson_vazia : LinhaJson aceitaTudo "{}" :=
  ⟨by decide, .map [], rfl, fun _ => rfl⟩

theorem linhaJson_true : LinhaJson aceitaTudo "true" :=
  ⟨by decide, .bool true, rfl, fun _ => rfl⟩

/-- Half a word is torn. -/
theorem rasgada_true : Rasgada (aceita aceitaTudo) ((escrita "true").take 2) := by
  intro linha h
  have hmeia : utf8De ((escrita "true").take 2) = some "tr" := rfl
  obtain rfl : "tr" = linha := Option.some.inj (hmeia.symm.trans h)
  exact ⟨by decide, fun _ => rfl⟩

/-- The crash between the line and its terminator: the scan indexes the line, the next
append joins it, and its own line is read one byte late. -/
theorem armazem_junta_linhas :
    ¬ ∀ (onValue : ℕ → JsonValue → Bool) (es : List Evento), (∀ e ∈ es, Valido onValue e) →
      Cumpre onValue es {} [] := by
  intro h
  obtain ⟨-, s₁, ls₁, hrun₁, hsegue₁, -, s₂, ls₂, hrun₂, hsegue₂, hmostra⟩ :=
    h aceitaTudo [.caiNoAppend "{}" 2, .append "{}"] (by
      simp only [List.forall_mem_cons, List.not_mem_nil, false_implies, implies_true, and_true]
      exact ⟨linhaJson_vazia, linhaJson_vazia⟩)
  have hcai : passo aceitaTudo (.caiNoAppend "{}" 2) {} = .ok () ⟨some [123, 125], [(0, 2)]⟩ := rfl
  rw [hcai] at hrun₁
  cases hrun₁
  have hjunta : passo aceitaTudo (.append "{}") ⟨some [123, 125], [(0, 2)]⟩ =
      .ok () ⟨some [123, 125, 123, 125, 10], [(0, 2), (3, 2)]⟩ := rfl
  rw [hjunta] at hrun₂
  cases hrun₂
  have htarde : BlockStore.get ⟨some [123, 125, 123, 125, 10], [(0, 2), (3, 2)]⟩ 1 =
      .ok (some "\x7d\n") := rfl
  have hget := Except.ok.inj (htarde.symm.trans (hmostra.get 1))
  rw [show ls₂ = ls₁ ++ ["{}"] from hsegue₂] at hget
  rcases hsegue₁ with rfl | rfl
  · cases hget
  · exact absurd (Option.some.inj hget) (by decide)

/-- Appends, a torn one, one that lost only its answer, and a cut. -/
theorem armazem_cumpre_rasgo : Cumpre aceitaTudo [.append "{}", .caiNoAppend "true" 2,
    .append "true", .caiNoAppend "{}" 3, .truncateFrom 1, .scan] {} [] := by
  refine armazem_cumpre ?_ ?_
  · simp only [List.forall_mem_cons, List.not_mem_nil, false_implies, implies_true, and_true]
    exact ⟨linhaJson_vazia, linhaJson_true, linhaJson_true, linhaJson_vazia, trivial, trivial⟩
  · simp only [List.forall_mem_cons, List.not_mem_nil, false_implies, implies_true, and_true]
    exact ⟨trivial, .inr (.inr rasgada_true), trivial, .inr (.inl (le_refl 3)), trivial, trivial⟩

end

end BlockStore

end Eav7
