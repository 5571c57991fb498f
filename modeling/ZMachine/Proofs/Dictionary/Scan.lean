import ZMachine.Proofs.Dictionary.Lookup

/-!
# Searches and scans

The simplest way to find a word is to go through the entries of the dictionary one after
another (`IsScan`). The index gives what such a scan for the text of a word gives, however
often a text is listed, and the search what a scan for its encoded form gives, as long as
the entries are in order or the dictionary says that they are not (`searches_are_scans`).

Both tell with 0 that they have found nothing. No entry stands at 0, and every entry stands
where a word of memory can tell, so this cannot be mistaken for an entry.
-/

set_option autoImplicit false

namespace ZMachine.Dictionary

/-- The answer of a scan for the entries of a kind: the address of the first of them, or 0
if there is none. -/
structure IsScan (entries : Array DictionaryEntry) (kind : DictionaryEntry → Prop)
    (answer : Word) : Prop where
  first : ∀ (k : Nat) e, entries[k]? = some e → kind e →
    (∀ j < k, ∀ e', entries[j]? = some e' → ¬ kind e') → answer.toNat = e.addr
  none : answer = 0 ↔ ∀ e ∈ entries, ¬ kind e

/-! ## Where entries stand -/

/-- Every entry can be told by a word that is not 0. -/
def Addressed (entries : Array DictionaryEntry) : Prop :=
  ∀ e ∈ entries, 0 < e.addr ∧ e.addr < 0x10000

/-- An entry stands at its place in the table, within the first 64K. -/
theorem readEntry_addr {m : Memory} {c : Codec} {base entryLength i : Nat} {e : DictionaryEntry}
    (found : readEntry m c base entryLength i = .ok e) :
    e.addr = base + i * entryLength ∧ e.addr < 0x10000 := by
  obtain ⟨string, _, found⟩ := bind_eq_ok found
  by_cases beyond : 0xFFFF < base + i * entryLength
  · simp only [beyond, if_true] at found
    cases found
  · simp only [beyond, if_false] at found
    obtain ⟨bytes, _, found⟩ := bind_eq_ok found
    cases found
    exact ⟨rfl, Nat.lt_succ_of_le (Nat.not_lt.mp beyond)⟩

/-- The entries of a dictionary that was read stand one behind the other. -/
theorem read_addresses {m : Memory} {c : Codec} {addr : Nat} {d : Dictionary}
    (given : read m c addr = .ok d) :
    ∃ base, ∀ (k : Nat) e, d.entries[k]? = some e →
      e.addr = base + k * d.entryLength ∧ 0 < e.addr ∧ e.addr < 0x10000 := by
  obtain ⟨_, _, _, base, positive, listing⟩ := read_listed given
  refine ⟨base, fun k e listed => ?_⟩
  obtain ⟨place, near⟩ := readEntry_addr (listing k e listed)
  exact ⟨place, by omega, near⟩

theorem read_addressed {m : Memory} {c : Codec} {addr : Nat} {d : Dictionary}
    (given : read m c addr = .ok d) : Addressed d.entries := by
  intro e member
  obtain ⟨_, listing⟩ := read_addresses given
  obtain ⟨k, listed⟩ := Array.getElem?_of_mem member
  exact (listing k e listed).2

/-! ## Finding -/

/-- Finding the first entry of a kind is a scan for it. -/
theorem isScan_find {entries : Array DictionaryEntry} (addressed : Addressed entries)
    (kind : DictionaryEntry → Prop) [DecidablePred kind] :
    IsScan entries kind (addressOf (entries.find? fun e => kind e)) := by
  rcases found : entries.find? (fun e => kind e) with _ | e
  · have absent : ∀ e ∈ entries, ¬ kind e := by
      intro e member holds
      exact Array.find?_eq_none.mp found e member (decide_eq_true holds)
    refine ⟨fun k e listed holds _ => ?_, fun _ => absent, fun _ => rfl⟩
    exact absurd holds (absent e (Array.mem_of_getElem? listed))
  · obtain ⟨holds, i, inside, rfl, earlier⟩ := Array.find?_eq_some_iff_getElem.mp found
    have holds := of_decide_eq_true holds
    obtain ⟨positive, near⟩ := addressed _ (Array.getElem_mem inside)
    have told : (UInt16.ofNat entries[i].addr).toNat = entries[i].addr :=
      UInt16.toNat_ofNat_of_lt' near
    refine ⟨fun k e listed holds' before => ?_, fun zero => ?_, fun absent => ?_⟩
    · -- Of two first entries none comes before the other.
      obtain ⟨inside', rfl⟩ := Array.getElem?_eq_some_iff.mp listed
      have same : i = k := by
        rcases Nat.lt_trichotomy i k with less | same | more
        · exact absurd holds (before i less _ (Array.getElem?_eq_getElem inside))
        · exact same
        · exact absurd (decide_eq_true holds') (by simpa using earlier k more)
      subst same
      exact told
    · have zero : (UInt16.ofNat entries[i].addr).toNat = 0 := congrArg UInt16.toNat zero
      omega
    · exact absurd holds (absent _ (Array.getElem_mem inside))

/-- What the index gives for a word is the first entry with the text that the encoded form
of the word is read as. -/
theorem lookup_eq_ok {d : Dictionary} (indexed : d.index = indexOf d.entries) {m : Memory}
    {c : Codec} {word : String} {answer : Word} (looked : d.lookup m c word = .ok answer) :
    ∃ string, c.decodeBytes m (c.encode word d.wordLength).toArray = .ok string ∧
      answer = addressOf (d.entries.find? (·.text = string.text)) := by
  obtain ⟨string, decoded, looked⟩ := bind_eq_ok looked
  cases looked
  refine ⟨string, decoded, ?_⟩
  rw [indexed, get?_indexOf]
  rfl

/-- **Searches are scans.** Take any dictionary that was read from an image. If a word is
found or missed in its index, then by a scan for the text that the encoded form of the word
is read as. If the dictionary says that its entries are in no order, or they are in
ascending order, then what the search gives is found by a scan for the encoded form itself.

The dictionary lists as many entries as it states, one behind the other. None of them
stands at 0 or beyond the first 64K, so that 0 stands for nothing else. -/
theorem searches_are_scans {m : Memory} {c : Codec} {addr : Nat} {d : Dictionary}
    (given : read m c addr = .ok d) (image : Memory) (codec : Codec) (word : String) :
    (∀ answer, d.lookup image codec word = .ok answer →
      ∃ string, codec.decodeBytes image (codec.encode word d.wordLength).toArray = .ok string ∧
        IsScan d.entries (·.text = string.text) answer) ∧
    (d.entryCount < 0 ∨ Ascending d.entries →
      IsScan d.entries (·.encoded = codec.encode word d.wordLength) (d.search codec word)) ∧
    d.entries.size = d.entryCount.natAbs ∧
    ∃ base, ∀ (k : Nat) e, d.entries[k]? = some e →
      e.addr = base + k * d.entryLength ∧ 0 < e.addr ∧ e.addr < 0x10000 := by
  obtain ⟨indexed, _, size, _⟩ := read_listed given
  have addressed := read_addressed given
  refine ⟨fun answer looked => ?_, fun ordered => ?_, size, read_addresses given⟩
  · obtain ⟨string, decoded, rfl⟩ := lookup_eq_ok indexed looked
    exact ⟨string, decoded, isScan_find addressed _⟩
  · have ordered : 0 ≤ d.entryCount → Ascending d.entries := by
      intro stated
      exact ordered.resolve_left (Int.not_lt.mpr stated)
    rw [search_eq_find ordered]
    exact isScan_find addressed _

/-! ## A dictionary in no order -/

/-- A story of version 3 that lists "look" on either side of "inven", and says with a
negative count that this is no order. -/
def unorderedBytes : Array Byte :=
  #[3, 0, 0, 0, 0, 0, 0, 0, 0, 0, 0, 0, 0, 0, 0, 0x40] ++ Array.replicate 48 0 ++
    #[0, 4, 0xff, 0xfd, 0x46, 0x94, 0xc0, 0xa5, 0x3a, 0x7b, 0xaa, 0x65, 0x46, 0x94, 0xc0, 0xa5]

def unorderedStory : Memory :=
  { bytes := unorderedBytes, pristine := unorderedBytes, version := 3, staticBase := 64,
    highBase := 0 }

def unorderedEntries : Array DictionaryEntry :=
  #[⟨"look", 68, [0x46, 0x94, 0xc0, 0xa5], 72, 0⟩,
    ⟨"inven", 72, [0x3a, 0x7b, 0xaa, 0x65], 76, 0⟩,
    ⟨"look", 76, [0x46, 0x94, 0xc0, 0xa5], 80, 0⟩]

def unordered : Dictionary :=
  { addr := 64, separators := [], entryLength := 4, entryCount := -3, entries := unorderedEntries,
    index := indexOf unorderedEntries, wordLength := 6 }

theorem read_unordered : read unorderedStory inventoryCodec 64 = .ok unordered := by
  have listed : readEntries unorderedStory inventoryCodec 68 4 3 0 #[] = .ok unorderedEntries :=
    eq_ok_of_toOption (by decide +kernel)
  change (readEntries unorderedStory inventoryCodec 68 4 3 0 #[] >>= _) = _
  rw [listed]
  rfl

/-- Of the two places where "look" is listed, both ways give the first. -/
theorem unordered_finds_first_look :
    read unorderedStory inventoryCodec 64 = .ok unordered ∧
    unordered.lookup unorderedStory inventoryCodec "look" = .ok 68 ∧
    unordered.search inventoryCodec "look" = 68 := by
  obtain ⟨looked, searched, _⟩ :=
    searches_are_scans read_unordered unorderedStory inventoryCodec "look"
  have looking := lookup_eq_find rfl rfl read_unordered "look"
  obtain ⟨string, decoded, scan⟩ := looked _ looking
  have text : string.text = "look" := by
    obtain ⟨string', decoded', text⟩ := decodeBytes_word rfl rfl read_unordered "look"
    cases decoded.symm.trans decoded'
    rw [text]
    decide +kernel
  have scan' := searched (.inl (by decide))
  have found := scan.first 0 _ rfl text.symm fun j before => absurd before j.not_lt_zero
  have found' := scan'.first 0 _ rfl (by decide +kernel) fun j before =>
    absurd before j.not_lt_zero
  refine ⟨read_unordered, ?_, UInt16.toNat.inj found'⟩
  rw [looking]
  exact congrArg Except.ok (UInt16.toNat.inj found)

end ZMachine.Dictionary
