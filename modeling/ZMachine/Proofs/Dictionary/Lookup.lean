import ZMachine.Dictionary
import ZMachine.Proofs.Operation
import ZMachine.Proofs.Text.RoundTrip

/-!
# Looking words up in two ways

A word can be looked up by its text, through the index, or by its encoded form,
through the entries in ascending order. Each way finds the first entry that matches
(`lookup_eq_find`, `search_eq_find`), but what has to match is not the same: the
first compares what the word is read as once it was written, the second the bytes
themselves.

When every entry holds the encoded form of its own text, the index finds what the
search finds for the word's cut, and the search finds that too unless the bytes of
the word differ from those of its cut (`lookup_eq_search_cut`). They differ when the
word ends inside a character whose shift is not the padding, or inside a code: an
"invenA" is cut to "inven", and only the index finds it.
-/

set_option autoImplicit false

namespace ZMachine.Dictionary

open Text

/-! ## The search -/

/-- The encoded texts of the entries are in strictly ascending order. -/
def Ascending (entries : Array DictionaryEntry) : Prop :=
  entries.toList.Pairwise fun a b => compare a.encoded b.encoded = .lt

instance (entries : Array DictionaryEntry) : Decidable (Ascending entries) :=
  inferInstanceAs (Decidable (List.Pairwise _ _))

theorem Ascending.lt {entries : Array DictionaryEntry} (ascending : Ascending entries) {i j : Nat}
    (before : i < j) (inside : j < entries.size) :
    compare (entries.getD i default).encoded (entries.getD j default).encoded = .lt := by
  have inside' : i < entries.size := Nat.lt_trans before inside
  have ordered := List.pairwise_iff_getElem.mp ascending i j inside' inside before
  simpa [Array.getD, inside, inside'] using ordered

/-- **Narrowing.** Among entries in order, the part that is searched keeps the place
of the key until nothing else is left. -/
theorem narrow_eq {entries : Array DictionaryEntry} (ascending : Ascending entries)
    {key : List Byte} {base size k : Nat} (low : base ≤ k) (high : k < base + size)
    (inside : base + size ≤ entries.size)
    (stands : (entries.getD k default).encoded = key) : narrow entries key base size = k := by
  fun_induction narrow entries key base size with
  | case1 base size large half mid base' ih =>
      have halved : half = size / 2 := rfl
      have middle : mid = base + half := rfl
      by_cases above : compare (entries.getD mid default).encoded key = .gt
      · have kept : base' = base := by simp only [base', above]
        have before : k < mid := by
          refine Nat.lt_of_not_le fun behind => ?_
          rcases Nat.eq_or_lt_of_le behind with same | behind
          · rw [same, stands] at above
            cases above.symm.trans Std.ReflCmp.compare_self
          · have := ascending.lt behind (by omega)
            rw [stands, above] at this
            cases this
        rw [kept] at ih ⊢
        exact ih low (by omega) (by omega)
      · have moved : base' = mid := by
          simp only [base']
        have behind : mid ≤ k := by
          refine Nat.le_of_not_lt fun before => above ?_
          have := ascending.lt before (by omega)
          rw [stands] at this
          exact Std.OrientedCmp.gt_of_lt this
        rw [moved] at ih ⊢
        exact ih behind (by omega) (by omega)
  | case2 base size small => omega

/-- Among entries in order, the search finds the entry with a key if there is one. -/
theorem bisect_eq_find {entries : Array DictionaryEntry} (ascending : Ascending entries)
    (key : List Byte) : bisect entries key = entries.find? (·.encoded = key) := by
  rcases found : entries.find? (·.encoded = key) with _ | e
  · have absent := Array.find?_eq_none.mp found
    rw [found, bisect]
    rcases stands : entries[narrow entries key 0 entries.size]? with _ | e
    · rfl
    · have other := absent e (Array.mem_of_getElem? stands)
      exact if_neg (by simpa using other)
  · obtain ⟨held, k, inside, stands, _⟩ := Array.find?_eq_some_iff_getElem.mp found
    have held : e.encoded = key := of_decide_eq_true held
    have place : narrow entries key 0 entries.size = k := by
      refine narrow_eq ascending (Nat.zero_le k) (by omega) (by omega) ?_
      simp [Array.getD, inside, stands, held]
    rw [found, bisect, place, Array.getElem?_eq_getElem inside, stands]
    exact if_pos held

/-- The address of an entry that was looked for, or 0. -/
def addressOf (found : Option DictionaryEntry) : Word :=
  (found.map fun e => UInt16.ofNat e.addr).getD 0

/-- In a dictionary that is in order, or says that it is not, the search finds the
first entry with the encoded form of a word. -/
theorem search_eq_find {d : Dictionary} (ordered : 0 ≤ d.entryCount → Ascending d.entries)
    (c : Codec) (word : String) :
    d.search c word = addressOf (d.entries.find? (·.encoded = c.encode word d.wordLength)) := by
  have found : (if d.entryCount < 0 then
      d.entries.find? (·.encoded = c.encode word d.wordLength)
      else bisect d.entries (c.encode word d.wordLength)) =
        d.entries.find? (·.encoded = c.encode word d.wordLength) := by
    split
    · rfl
    · rename_i listed
      exact bisect_eq_find (ordered (Int.not_lt.mp listed)) _
  rw [search, found]
  generalize d.entries.find? (·.encoded = c.encode word d.wordLength) = answer
  cases answer <;> rfl

/-! ## The index -/

/-- An index that has taken up more entries keeps what it had, and holds the first
entry of each further text. -/
theorem getElem?_foldl_insertIfNew (entries : List DictionaryEntry)
    (index : Std.HashMap String Word) (text : String) :
    (entries.foldl (fun index e => index.insertIfNew e.text (UInt16.ofNat e.addr)) index)[text]? =
      index[text]?.or ((entries.find? (·.text = text)).map fun e => UInt16.ofNat e.addr) := by
  induction entries generalizing index with
  | nil => simp
  | cons e rest ih =>
      rw [List.foldl_cons, ih, Std.HashMap.getElem?_insertIfNew]
      by_cases same : e.text = text
      · subst same
        by_cases known : e.text ∈ index
        · simp [known]
        · simp [known]
      · simp [same]

/-- The index gives the first entry with a text. -/
theorem get?_indexOf (entries : Array DictionaryEntry) (text : String) :
    (indexOf entries).get? text =
      (entries.find? (·.text = text)).map fun e => UInt16.ofNat e.addr := by
  rw [Std.HashMap.get?_eq_getElem?, indexOf, ← Array.foldl_toList, getElem?_foldl_insertIfNew]
  simp

/-- What is found for a word depends on no memory. -/
theorem lookup_memory (d : Dictionary) (m t : Memory) (c : Codec) (word : String) :
    d.lookup m c word = d.lookup t c word := by
  rw [lookup, lookup, Codec.decodeBytes_encode_memory c m t]

/-! ## Entries -/

/-- A bounded string of the image is read as if its bytes stood alone. -/
theorem decodeBytes_extract {m : Memory} {c : Codec} {addr limit : Nat} {string : ZString}
    (even : limit % 2 = 0) (inside : addr + limit ≤ m.size)
    (decoded : c.decodeBounded m addr limit = .ok string) :
    c.decodeBytes m (m.bytes.extract addr (addr + limit)) = .ok string := by
  have size : (m.bytes.extract addr (addr + limit)).size = limit := by
    rw [Memory.size] at inside
    rw [Array.size_extract]
    omega
  have alone : readGlyphs c (some (expandAbbreviation c m)) (m.bytes.extract addr (addr + limit))
      (some limit) 0 .a0 =
        readGlyphs c (some (expandAbbreviation c m)) m.bytes (some limit) addr .a0 := by
    simp only [readGlyphs, gather_extract #[] inside even (Nat.zero_mod 2)]
  obtain ⟨⟨read, lock⟩, decoded, given⟩ := bind_eq_ok decoded
  rw [Codec.decodeFrom, if_neg (by omega)] at decoded
  rw [Codec.decodeBytes, size, alone]
  generalize readGlyphs c (some (expandAbbreviation c m)) m.bytes (some limit) addr .a0 = result
    at decoded ⊢
  rcases result with fault | ⟨glyphs, length, lock'⟩
  · cases decoded
  · cases decoded
    exact given

/-- The text of an entry is what its encoded form is read as. -/
theorem readEntry_text {m : Memory} {c : Codec} {base entryLength i : Nat} {e : DictionaryEntry}
    (found : readEntry m c base entryLength i = .ok e) :
    ∃ string, c.decodeBytes m e.encoded.toArray = .ok string ∧ string.text = e.text := by
  obtain ⟨string, decoded, found⟩ := bind_eq_ok found
  by_cases beyond : 0xFFFF < base + i * entryLength
  · simp only [beyond, if_true] at found
    cases found
  simp only [beyond, if_false] at found
  obtain ⟨bytes, stored, found⟩ := bind_eq_ok found
  cases found
  rw [Memory.readBytes] at stored
  split at stored
  · rename_i inside
    cases stored
    have even : textBytes m.version % 2 = 0 := by
      rw [textBytes]
      split <;> rfl
    exact ⟨string, by rw [Array.toArray_toList, decodeBytes_extract even inside decoded], rfl⟩
  · cases stored

/-- Entries are read in a row behind those already read, each at its number. -/
theorem getElem?_readEntries {m : Memory} {c : Codec} {base entryLength count i : Nat}
    {found entries : Array DictionaryEntry}
    (read : readEntries m c base entryLength count i found = .ok entries)
    (numbered : found.size = i) :
    entries.size = i + count ∧ ∀ k e, entries[k]? = some e →
      found[k]? = some e ∨ readEntry m c base entryLength k = .ok e := by
  induction count generalizing i found with
  | zero =>
      cases read
      exact ⟨numbered, fun k e listed => .inl listed⟩
  | succ count ih =>
      obtain ⟨next, here, read⟩ := bind_eq_ok read
      obtain ⟨size, listing⟩ := ih read (by rw [Array.size_push, numbered])
      refine ⟨by omega, fun k e listed => ?_⟩
      rcases listing k e listed with old | later
      · rw [Array.getElem?_push, numbered] at old
        split at old
        · subst k
          cases old
          exact .inr here
        · exact .inl old
      · exact .inr later

/-- What a dictionary that was read consists of: as many entries as it states, one behind
the other from some place on, and the index and the length of words that belong to them. -/
theorem read_listed {m : Memory} {c : Codec} {addr : Nat} {d : Dictionary}
    (given : read m c addr = .ok d) :
    d.index = indexOf d.entries ∧ d.wordLength = wordZchars m.version ∧
      d.entries.size = d.entryCount.natAbs ∧
      ∃ base, 0 < base ∧ ∀ k e, d.entries[k]? = some e →
        readEntry m c base d.entryLength k = .ok e := by
  obtain ⟨separators, _, given⟩ := bind_eq_ok given
  obtain ⟨codes, _, given⟩ := bind_eq_ok given
  obtain ⟨chars, _, given⟩ := bind_eq_ok given
  obtain ⟨length, _, given⟩ := bind_eq_ok given
  obtain ⟨count, _, given⟩ := bind_eq_ok given
  dsimp only at given
  split at given
  · cases given
  · obtain ⟨entries, listed, given⟩ := bind_eq_ok given
    cases given
    obtain ⟨size, listing⟩ := getElem?_readEntries listed rfl
    refine ⟨rfl, rfl, by rw [size, Nat.zero_add], addr + 1 + separators.toNat + 3,
      Nat.succ_pos _, fun k e found => ?_⟩
    exact (listing k e found).resolve_left nofun

/-- What words are looked up with in a dictionary that was read. -/
theorem read_spec {m : Memory} {c : Codec} {addr : Nat} {d : Dictionary}
    (given : read m c addr = .ok d) :
    d.index = indexOf d.entries ∧ d.wordLength = wordZchars m.version ∧
      ∀ e ∈ d.entries, ∃ string, c.decodeBytes m e.encoded.toArray = .ok string ∧
        string.text = e.text := by
  obtain ⟨index, length, _, base, _, listing⟩ := read_listed given
  refine ⟨index, length, fun e member => ?_⟩
  obtain ⟨k, listed⟩ := Array.getElem?_of_mem member
  exact readEntry_text (listing k e listed)

/-! ## Both ways -/

/-- Entries that are told apart in the same way are found alike. -/
theorem find_congr {entries : Array DictionaryEntry} {p q : DictionaryEntry → Bool}
    (same : ∀ e ∈ entries, p e = q e) : entries.find? p = entries.find? q := by
  have filtered : entries.toList.filter p = entries.toList.filter q :=
    List.filter_congr fun e member => same e (Array.mem_toList_iff.mp member)
  rw [← Array.find?_toList, ← Array.find?_toList, ← List.head?_filter, ← List.head?_filter,
    filtered]

section Both

variable {m : Memory} {c : Codec} {addr : Nat} {d : Dictionary} (plain : c.alphabetTable = 0)
  (latin : c.unicodeTable = 0) (given : read m c addr = .ok d)

/-- A word of the dictionary fills whole words of memory. -/
theorem wordZchars_whole (version : Nat) : ∃ count, wordZchars version = 3 * count := by
  rw [wordZchars]
  split
  · exact ⟨2, rfl⟩
  · exact ⟨3, rfl⟩

include plain latin given

/-- What the encoded form of a word is read as. -/
theorem decodeBytes_word (word : String) :
    ∃ string, c.decodeBytes m (c.encode word d.wordLength).toArray = .ok string ∧
      string.text = c.cut word d.wordLength := by
  obtain ⟨_, length, _⟩ := read_spec given
  obtain ⟨count, whole⟩ := wordZchars_whole m.version
  rw [length, whole]
  exact Codec.decodeBytes_encode_text plain latin m word count

/-- The index gives the first entry whose text is what a word is read as. -/
theorem lookup_eq_find (word : String) :
    d.lookup m c word =
      .ok (addressOf (d.entries.find? (·.text = c.cut word d.wordLength))) := by
  obtain ⟨index, _, _⟩ := read_spec given
  obtain ⟨string, decoded, text⟩ := decodeBytes_word plain latin given word
  rw [lookup, decoded]
  change Except.ok ((d.index.get? string.text).getD 0) = _
  rw [text, index, get?_indexOf]
  rfl

/-- An entry with the encoded form of a word has the text that the word is read as. -/
theorem text_of_encoded {word : String} {e : DictionaryEntry} (member : e ∈ d.entries)
    (encoded : e.encoded = c.encode word d.wordLength) : e.text = c.cut word d.wordLength := by
  obtain ⟨_, _, texts⟩ := read_spec given
  obtain ⟨string, decoded, text⟩ := texts e member
  obtain ⟨string', decoded', text'⟩ := decodeBytes_word plain latin given word
  rw [encoded, decoded'] at decoded
  cases decoded
  rw [← text, text']

/-- Where entries hold the encoded forms of their texts, an entry has the text that a
word is read as when it has the encoded form of that text. -/
theorem text_iff_encoded (normal : ∀ e ∈ d.entries, e.encoded = c.encode e.text d.wordLength)
    (word : String) {e : DictionaryEntry} (member : e ∈ d.entries) :
    e.text = c.cut word d.wordLength ↔
      e.encoded = c.encode (c.cut word d.wordLength) d.wordLength := by
  constructor
  · intro text
    rw [normal e member, text]
  · intro encoded
    rw [text_of_encoded plain latin given member encoded, Codec.cut_cut]

/-- **Two ways of looking up.** In a dictionary in ascending order whose entries hold
the encoded forms of their texts, the index gives for a word what the search gives
for the word's cut. The search gives the same for the word itself if its bytes are
those of its cut, and nothing otherwise. So the two agree on every word that is not
listed or whose bytes are those of its cut, and on no other; in particular on words
of characters with codes that fit or that are cut between two characters. -/
theorem lookup_eq_search_cut (ascending : Ascending d.entries)
    (normal : ∀ e ∈ d.entries, e.encoded = c.encode e.text d.wordLength) (word : String) :
    d.lookup m c word = .ok (d.search c (c.cut word d.wordLength)) ∧
    d.search c word =
      (if c.encode (c.cut word d.wordLength) d.wordLength = c.encode word d.wordLength then
        d.search c (c.cut word d.wordLength) else 0) ∧
    (d.lookup m c word = .ok (d.search c word) ↔
      d.search c (c.cut word d.wordLength) = 0 ∨
        c.encode (c.cut word d.wordLength) d.wordLength = c.encode word d.wordLength) ∧
    ((∀ character ∈ word.toList, Zscii.Writable character) →
      (totalExpansion c.version word.toList ≤ d.wordLength ∨
        totalExpansion c.version (fitting c.version d.wordLength word.toList) = d.wordLength) →
      d.lookup m c word = .ok (d.search c word)) := by
  have ordered : 0 ≤ d.entryCount → Ascending d.entries := fun _ => ascending
  have looked : d.lookup m c word = .ok (d.search c (c.cut word d.wordLength)) := by
    rw [lookup_eq_find plain latin given, search_eq_find ordered, find_congr]
    intro e member
    exact decide_eq_decide.mpr (text_iff_encoded plain latin given normal word member)
  have searched : d.search c word =
      (if c.encode (c.cut word d.wordLength) d.wordLength = c.encode word d.wordLength then
        d.search c (c.cut word d.wordLength) else 0) := by
    split
    · rename_i same
      rw [search_eq_find ordered, search_eq_find ordered, same]
    · rename_i other
      have absent : d.entries.find? (·.encoded = c.encode word d.wordLength) = none := by
        refine Array.find?_eq_none.mpr fun e member found => ?_
        have encoded : e.encoded = c.encode word d.wordLength := of_decide_eq_true found
        have text := text_of_encoded plain latin given member encoded
        rw [← text, ← normal e member] at other
        exact other encoded
      rw [search_eq_find ordered, absent]
      rfl
  have agree : d.lookup m c word = .ok (d.search c word) ↔
      d.search c (c.cut word d.wordLength) = 0 ∨
        c.encode (c.cut word d.wordLength) d.wordLength = c.encode word d.wordLength := by
    rw [looked, searched, Except.ok.injEq]
    split
    · rename_i same
      exact ⟨fun _ => .inr same, fun _ => rfl⟩
    · rename_i other
      exact ⟨.inl, fun either => either.resolve_right other⟩
  exact ⟨looked, searched, agree, fun writable whole => agree.mpr (.inr
    (Codec.encode_cut writable whole))⟩

end Both

/-! ## A word that only the index finds -/

/-- A story of version 3 with the words "inven" and "look". -/
def inventoryBytes : Array Byte :=
  #[3, 0, 0, 0, 0, 0, 0, 0, 0, 0, 0, 0, 0, 0, 0, 0x40] ++ Array.replicate 48 0 ++
    #[0, 4, 0, 2, 0x3a, 0x7b, 0xaa, 0x65, 0x46, 0x94, 0xc0, 0xa5]

def inventoryStory : Memory :=
  { bytes := inventoryBytes, pristine := inventoryBytes, version := 3, staticBase := 64,
    highBase := 0 }

def inventoryCodec : Codec :=
  { version := 3, abbreviations := 0, alphabetTable := 0, unicodeTable := 0 }

def inventoryEntries : Array DictionaryEntry :=
  #[⟨"inven", 68, [0x3a, 0x7b, 0xaa, 0x65], 72, 0⟩,
    ⟨"look", 72, [0x46, 0x94, 0xc0, 0xa5], 76, 0⟩]

def inventory : Dictionary :=
  { addr := 64, separators := [], entryLength := 4, entryCount := 2, entries := inventoryEntries,
    index := indexOf inventoryEntries, wordLength := 6 }

theorem read_inventory : read inventoryStory inventoryCodec 64 = .ok inventory := by
  have listed : readEntries inventoryStory inventoryCodec 68 4 2 0 #[] = .ok inventoryEntries :=
    eq_ok_of_toOption (by decide +kernel)
  change (readEntries inventoryStory inventoryCodec 68 4 2 0 #[] >>= _) = _
  rw [listed]
  rfl

theorem inventory_ascending : Ascending inventory.entries := by
  change Ascending inventoryEntries
  decide

theorem inventory_normal :
    ∀ e ∈ inventory.entries, e.encoded = inventoryCodec.encode e.text inventory.wordLength := by
  change ∀ e ∈ inventoryEntries, e.encoded = inventoryCodec.encode e.text 6
  decide

/-- Both ways find a word that fits. -/
theorem inventory_finds_look :
    read inventoryStory inventoryCodec 64 = .ok inventory ∧ 0 < inventory.entryCount ∧
    inventory.lookup inventoryStory inventoryCodec "look" =
      .ok (inventory.search inventoryCodec "look") ∧
    inventory.search inventoryCodec "look" = 72 := by
  have writable : ∀ character ∈ "look".toList, Zscii.Writable character :=
    forall_mem_of_all (by decide)
  have fits : totalExpansion 3 "look".toList ≤ 6 := by decide
  obtain ⟨_, _, _, agree⟩ := lookup_eq_search_cut rfl rfl read_inventory inventory_ascending
    inventory_normal "look"
  exact ⟨read_inventory, by decide, agree writable (.inl fits), by decide +kernel⟩

/-- The capital at the end of "invenA" is cut behind its shift. The index finds the
"inven" that is left; the bytes still hold the shift, and the search finds nothing. -/
theorem invenA_only_in_index :
    (Memory.load inventoryBytes = .ok inventoryStory ∧
      Codec.read inventoryStory = .ok inventoryCodec ∧
      inventoryCodec.alphabetTable = 0 ∧ inventoryCodec.unicodeTable = 0 ∧
      read inventoryStory inventoryCodec 64 = .ok inventory ∧ 0 < inventory.entryCount ∧
      Ascending inventory.entries ∧
      ∀ e ∈ inventory.entries, e.encoded = inventoryCodec.encode e.text inventory.wordLength) ∧
    inventory.lookup inventoryStory inventoryCodec "invenA" = .ok 68 ∧
    inventory.search inventoryCodec "invenA" = 0 := by
  refine ⟨⟨eq_ok_of_toOption (by decide +kernel), eq_ok_of_toOption (by decide +kernel), rfl, rfl,
    read_inventory, by decide, inventory_ascending, inventory_normal⟩, ?_, by decide +kernel⟩
  rw [lookup_eq_find rfl rfl read_inventory]
  exact congrArg Except.ok (by decide +kernel)

end ZMachine.Dictionary
