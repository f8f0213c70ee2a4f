/-!
# Orders on Keys

The order in which a finite table lists its keys.

Zones, records, plugins and files are all listed in an order that shows in what
the program prints, so the order is part of the data. `KeyOrder` names one
comparison for a type of keys, together with the two laws a sorted list needs:
the comparison is transitive, and two keys that compare equal are equal.

The comparison is a field rather than the type's general `Ord` instance. Text is
compared by code points, which is the same as comparing its UTF-8 bytes, and a
path of names is compared name by name; neither should change because some other
order on the same type happens to be in scope.

## Main definitions

* `KeyOrder`: A lawful three-way comparison of keys.
* `KeyOrder.along`: The order of what tells keys apart.
-/

namespace DnsZones

/-- A total order on keys, given by a three-way comparison. -/
class KeyOrder (κ : Type) where
  /-- How two keys compare. -/
  cmp : κ → κ → Ordering
  /-- The comparison is a linear preorder. -/
  trans : Std.TransCmp cmp
  /-- Keys that compare equal are equal. -/
  lawful : Std.LawfulEqCmp cmp

namespace KeyOrder

instance instTransCmp {κ : Type} [KeyOrder κ] : Std.TransCmp (cmp : κ → κ → Ordering) := trans

instance instLawfulEqCmp {κ : Type} [KeyOrder κ] : Std.LawfulEqCmp (cmp : κ → κ → Ordering) :=
  lawful

/-- Text is ordered by its code points, and so by its UTF-8 bytes. -/
instance instString : KeyOrder String where
  cmp := String.compare
  trans := String.instTransOrd
  lawful := String.instLawfulEqOrd

/-- Lists of keys are ordered item by item, a list before its extensions. -/
instance instList {κ : Type} [KeyOrder κ] : KeyOrder (List κ) where
  cmp := List.compareLex cmp
  trans := List.instTransCmpCompareLex
  lawful := List.instLawfulEqCmpCompareLex

/-- Keys ordered by something that tells them apart. -/
@[reducible]
def along {α κ : Type} [KeyOrder κ] (key : α → κ) (injective : ∀ a b, key a = key b → a = b) :
    KeyOrder α where
  cmp a b := cmp (key a) (key b)
  trans :=
    { eq_swap := fun {a b} => @Std.OrientedCmp.eq_swap κ cmp _ (key a) (key b)
      isLE_trans := fun {a b c} =>
        @Std.TransCmp.isLE_trans κ cmp _ (key a) (key b) (key c) }
  lawful :=
    { compare_self := fun {a} => @Std.ReflCmp.compare_self κ cmp _ (key a)
      eq_of_compare := fun h => injective _ _ (Std.LawfulEqCmp.eq_of_compare h) }

end KeyOrder

end DnsZones
