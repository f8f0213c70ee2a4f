import DnsZones.Proofs.Name

/-!
# Laws of Addresses

Which addresses share a reverse zone.

A reverse zone is named after the first three octets of an address, written
backwards. Octets are numbers and have no dot in them, so the octets can be read
off the name again: addresses have one reverse zone exactly if their first three
octets are the same. With the last octet in front, the name spells the whole
address backwards.

## Main definitions

* `IPv4.network`: What an address has in common with its neighbours.

## Theorems

* `checkIPv4_eq_ok_iff`: Which texts are read as an address.
* `IPv4.eq_dot_or_isDigit_of_ofString?`: The characters of such a text.
* `IPv4.reverseZone_eq_iff`: Neighbours share a reverse zone, and no others.
* `IPv4.decimal_append_reverseZone`: The last octet and the zone spell the address backwards.
-/

namespace DnsZones

/-- A text is read as an address exactly if it is one. -/
theorem checkIPv4_eq_ok_iff {text : String} {address : IPv4} :
    checkIPv4 text = .ok address ↔ IPv4.ofString? text = some address := by
  unfold checkIPv4
  by_cases ha : isAddress text = true
  · rw [if_pos ha]
    cases IPv4.ofString? text with
    | none => simp only [reduceCtorEq]
    | some found => simp only [Except.ok.injEq, Option.some.injEq]
  · rw [if_neg ha]
    refine iff_of_false (by simp only [reduceCtorEq, not_false_eq_true]) fun ho => ha ?_
    -- Whatever is an IPv4 address is an address.
    unfold IPv4.ofString? at ho
    unfold isAddress
    split at ho
    · next found hread =>
        rw [hread]
        rfl
    · cases ho

namespace IPv4

theorem isDigit_of_isDigit {c : Char} (h : isDigit c = true) : c.isDigit = true := by
  rcases Option.isSome_iff_exists.mp h with ⟨d, hd⟩
  exact Numeral.isDigit_of_digit? hd

/-- What is read as an octet is digits. -/
theorem mem_of_readOctet? {cs rest : List Char} {octet : UInt8} {c : Char}
    (h : readOctet? cs = some (octet, rest)) (hc : c ∈ cs) : c.isDigit = true ∨ c ∈ rest := by
  unfold readOctet? at h
  split at h
  · cases h
    rw [← List.takeWhile_append_dropWhile (p := isDigit) (l := cs), List.mem_append] at hc
    exact hc.imp_left fun hm => isDigit_of_isDigit (List.mem_takeWhile_imp hm)
  · cases h

theorem mem_of_readDotOctet? {cs rest : List Char} {octet : UInt8} {c : Char}
    (h : readDotOctet? cs = some (octet, rest)) (hc : c ∈ cs) :
    (c = '.' ∨ c.isDigit = true) ∨ c ∈ rest := by
  unfold readDotOctet? at h
  split at h
  · rcases List.mem_cons.mp hc with hdot | hc
    · exact Or.inl (Or.inl hdot)
    · exact (mem_of_readOctet? h hc).imp_left Or.inr
  · cases h

/-- An address is written with digits and dots. -/
theorem eq_dot_or_isDigit_of_ofString? {text : String} {address : IPv4} {c : Char}
    (h : ofString? text = some address) (hc : c ∈ text.toList) : c = '.' ∨ c.isDigit = true := by
  unfold ofString? read? at h
  split at h
  · next found hread =>
      split at hread
      · cases hread
      · next hfirst =>
          split at hread
          · cases hread
          · next hsecond =>
              split at hread
              · cases hread
              · next hthird =>
                  split at hread
                  · cases hread
                  · next hfourth =>
                      cases hread
                      -- The character is in one of the octets, or in front of one.
                      rcases mem_of_readOctet? hfirst hc with hd | hc
                      · exact Or.inr hd
                      rcases mem_of_readDotOctet? hsecond hc with hd | hc
                      · exact hd
                      rcases mem_of_readDotOctet? hthird hc with hd | hc
                      · exact hd
                      rcases mem_of_readDotOctet? hfourth hc with hd | hc
                      · exact hd
                      · cases hc
  · cases h

/-- The octets that an address has in common with its neighbours. -/
def network (address : IPv4) : UInt8 × UInt8 × UInt8 :=
  (address.first, address.second, address.third)

theorem toList_reverseZone (address : IPv4) :
    address.reverseZone.toList = (Numeral.decimal address.third.toNat).toList ++ '.' ::
      ((Numeral.decimal address.second.toNat).toList ++ '.' ::
        ((Numeral.decimal address.first.toNat).toList ++ '.' :: "in-addr.arpa.".toList)) := by
  simp [reverseZone]

theorem decimal_octet_injective {m n : UInt8}
    (h : (Numeral.decimal m.toNat).toList = (Numeral.decimal n.toNat).toList) : m = n :=
  UInt8.toNat_inj.mp (Numeral.decimal_injective (String.toList_inj.mp h))

/-- Addresses have one reverse zone exactly if they are neighbours. -/
theorem reverseZone_eq_iff {a b : IPv4} :
    a.reverseZone = b.reverseZone ↔ a.network = b.network := by
  constructor
  · intro h
    -- The texts between the dots are the octets.
    have hsplit := congrArg (fun name => Text.split '.' name.toList) h
    simp only [toList_reverseZone, Text.split_append_cons, Name.split_decimal, List.cons_append,
      List.nil_append, List.cons.injEq] at hsplit
    rcases hsplit with ⟨hthird, hsecond, hfirst, -⟩
    unfold network
    rw [decimal_octet_injective hfirst, decimal_octet_injective hsecond,
      decimal_octet_injective hthird]
  · intro h
    unfold network at h
    rw [Prod.mk.injEq, Prod.mk.injEq] at h
    unfold reverseZone
    rw [h.1, h.2.1, h.2.2]

/-- The last octet and the name of the reverse zone spell the address backwards. -/
theorem decimal_append_reverseZone (address : IPv4) :
    Numeral.decimal address.fourth.toNat ++ "." ++ address.reverseZone
      = ".".intercalate (address.octets.reverse.map fun octet => Numeral.decimal octet.toNat)
        ++ ".in-addr.arpa." := by
  simp only [octets, reverseZone, List.reverse_cons, List.reverse_nil, List.nil_append,
    List.cons_append, List.map_cons, List.map_nil, String.intercalate_cons_cons,
    String.intercalate_singleton, String.append_assoc]

end IPv4

end DnsZones
