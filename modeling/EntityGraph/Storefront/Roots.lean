import EntityGraph.Schema.Roots

namespace EntityGraph.Storefront

def roots : RootFields where
  query :=
    [⟨"product", "Look up a product by id or SKU.", "Product", .lookup (some "sku")⟩,
     ⟨"customer", "Look up a customer by id.", "Customer", .lookup none⟩,
     ⟨"order", "Look up an order by id.", "Order", .lookup none⟩,
     ⟨"products", "Search products.", "Product", .search⟩,
     ⟨"customers", "Search customers.", "Customer", .search⟩,
     ⟨"orders", "Search orders.", "Order", .search⟩]
  mutation := [⟨"placeOrder", "Place a new order.", "Order", .create "order"⟩]
  query_nodup := by decide
  mutation_nodup := by decide

end EntityGraph.Storefront
