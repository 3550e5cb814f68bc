import QueryMapping.Strategy.Basic

/-! Row mappers that need nothing but the row. -/

namespace QueryMapping.RowMapper

def firstColumn (s : Scalar) : RowMapper s.Carrier := fun row _ => (row.get s 0).mapError .cursor

end QueryMapping.RowMapper
