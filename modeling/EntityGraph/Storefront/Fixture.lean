import EntityGraph.Json.Basic

namespace EntityGraph.Storefront

def products : List Json :=
  [.object
      [("id", .string "1"), ("sku", .string "MUG-BLK"), ("name", .string "Black Mug"),
       ("description", .string "Stoneware mug, 350 ml."), ("price", .string "12.50"),
       ("status", .int 1), ("visibility", .int 4), ("typeId", .string "simple"),
       ("weight", .number (.float 0.4)), ("createdAt", .string "2024-01-10 09:00:00"),
       ("comments", .array
         [.object [("author", .string "ana"), ("text", .string "Keeps coffee hot.")],
          .object [("author", .string "li"), ("text", .string "Handle is a bit small.")]]),
       ("custom_attributes", .array
         [.object [("attribute_code", .string "material"), ("value", .string "stoneware")]])],
   .object
      [("id", .string "2"), ("sku", .string "TEE-ORG-M"), ("name", .string "Organic Tee"),
       ("description", .string "Organic cotton t-shirt, size M."), ("price", .int 25),
       ("status", .int 1), ("visibility", .int 4), ("typeId", .string "configurable"),
       ("weight", .number (.float 0.2)), ("createdAt", .string "2024-02-01 12:30:00"),
       ("comments", .array []),
       ("custom_attributes", .array
         [.object [("attribute_code", .string "material"), ("value", .string "cotton")],
          .object [("attribute_code", .string "cust_attr"), ("value", .string "eco")]])],
   .object
      [("id", .string "3"), ("sku", .string "CAP-RED"), ("name", .string "Red Cap"),
       ("description", .string "Adjustable cap."), ("price", .int 18), ("status", .int 2),
       ("visibility", .int 1), ("typeId", .string "simple"),
       ("createdAt", .string "2024-03-15 08:15:00"),
       ("comments", .array
         [.object [("author", .string "sam"), ("text", .string "Great color.")]]),
       ("extension_attributes", .object [("material", .string "polyester")])],
   .object
      [("id", .string "4"), ("sku", .string "BAG-TOTE"), ("name", .string "Canvas Tote"),
       ("description", .string "Canvas tote bag."), ("price", .number (.float 15.99)),
       ("status", .int 1), ("visibility", .int 4), ("typeId", .string "simple"),
       ("createdAt", .string "2024-04-20 17:45:00")]]

def customers : List Json :=
  [.object
      [("id", .string "10"), ("firstname", .string "Ada"), ("lastname", .string "Lovelace"),
       ("email", .string "ada@example.com"),
       ("addresses", .array
         [.object
            [("id", .string "100"), ("country", .string "GB"), ("city", .string "London"),
             ("street", .string "12 St James's Square"), ("zip", .string "SW1Y 4JH")]]),
       ("quotes", .array
         [.object
            [("id", .string "200"), ("name", .string "Cart"), ("isDefault", .bool true),
             ("items", .array
               [.object
                  [("id", .string "201"),
                   ("product", .object
                     [("id", .string "1"), ("sku", .string "MUG-BLK"),
                      ("description", .string "Stoneware mug, 350 ml.")]),
                   ("qty", .int 2), ("options", .array [])]])]]),
       ("wishlists", .array
         [.object
            [("id", .string "300"), ("name", .string "Later"), ("isDefault", .bool true),
             ("items", .array
               [.object
                  [("id", .string "301"), ("product", .null), ("qty", .int 1),
                   ("options", .array [])]])]])],
   .object
      [("id", .string "11"), ("firstname", .string "Grace"), ("lastname", .string "Hopper"),
       ("email", .string "grace@example.com"),
       ("addresses", .array
         [.object
            [("id", .string "101"), ("country", .string "US"), ("city", .string "New York"),
             ("street", .string "1 Navy Pier"), ("zip", .string "10001")],
          .object
            [("id", .string "102"), ("country", .string "US"), ("city", .string "Arlington"),
             ("street", .string "2 Pentagon Rd"), ("zip", .string "22202")]])]]

def orders : List Json :=
  [.object
      [("id", .string "1000"),
       ("customer", .object
         [("id", .string "10"), ("firstname", .string "Ada"), ("lastname", .string "Lovelace"),
          ("email", .string "ada@example.com")]),
       ("items", .array
         [.object
            [("id", .string "1001"),
             ("product", .object
               [("id", .string "1"), ("sku", .string "MUG-BLK"),
                ("description", .string "Stoneware mug, 350 ml.")]),
             ("qty", .int 2), ("options", .array [])],
          .object
            [("id", .string "1002"),
             ("product", .object
               [("id", .string "2"), ("sku", .string "TEE-ORG-M"),
                ("description", .string "Organic cotton t-shirt, size M.")]),
             ("qty", .int 1),
             ("options", .array
               [.object [("attribute", .string "size"), ("value", .string "M")],
                .object [("attribute", .string "color"), ("value", .string "green")]])],
          .object
            [("id", .string "1003"),
             ("product", .object
               [("id", .string "4"), ("sku", .string "BAG-TOTE"),
                ("description", .string "Canvas tote bag.")]),
             ("qty", .int 3), ("options", .array [])]]),
       ("billingAddress", .object
         [("id", .string "100"), ("country", .string "GB"), ("city", .string "London"),
          ("street", .string "12 St James's Square"), ("zip", .string "SW1Y 4JH")]),
       ("shippingAddress", .object
         [("id", .string "100"), ("country", .string "GB"), ("city", .string "London"),
          ("street", .string "12 St James's Square"), ("zip", .string "SW1Y 4JH")]),
       ("shippingMethod", .string "flatrate"),
       ("paymentInfo", .array
         [.object
            [("id", .string "1010"), ("paymentMethodCode", .string "checkmo"),
             ("amount", .number (.float 97.97))]])],
   .object
      [("id", .string "1100"),
       ("customer", .object
         [("id", .string "11"), ("firstname", .string "Grace"), ("lastname", .string "Hopper"),
          ("email", .string "grace@example.com")]),
       ("items", .array
         [.object
            [("id", .string "1101"),
             ("product", .object
               [("id", .string "3"), ("sku", .string "CAP-RED"),
                ("description", .string "Adjustable cap.")]),
             ("qty", .int 1), ("options", .array [])]]),
       ("billingAddress", .object
         [("id", .string "101"), ("country", .string "US"), ("city", .string "New York"),
          ("street", .string "1 Navy Pier"), ("zip", .string "10001")]),
       ("shippingAddress", .null), ("shippingMethod", .string "pickup"),
       ("paymentInfo", .array [])]]

def fixture : Json :=
  .object [("Product", .array products), ("Customer", .array customers), ("Order", .array orders)]

end EntityGraph.Storefront
