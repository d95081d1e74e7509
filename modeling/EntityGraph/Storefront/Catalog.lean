import EntityGraph.Catalog.Discovery

namespace EntityGraph.Storefront

open Attribute (scalar entity)

/-- First and last name with a blank between; a missing or empty part is left out. -/
def fullName (r : Record) : AttributeValue :=
  let part := fun code => match r.core code with
    | some (.string s) => if s.isEmpty then none else some s
    | _ => none
  match ["firstname", "lastname"].filterMap part with
  | [] => .null
  | parts => .string (" ".intercalate parts)

def productFields : List (String × String) :=
  [("name", "varchar"), ("attributeSetId", "int"), ("price", "decimal"), ("status", "int"),
   ("visibility", "int"), ("typeId", "static"), ("createdAt", "datetime"),
   ("updatedAt", "datetime"), ("weight", "decimal"), ("material", "varchar"),
   ("cust_attr", "text"), ("websiteIds", "int[]"), ("mediaGalleryEntries", "gallery")]

def customer : Entity :=
  .ofAttributes "Customer" "Customer entity."
    [scalar "id" "Customer id" .id false,
     (scalar "name" "Customer name" .string false).computed fullName,
     scalar "email" "Customer email address" .string false,
     entity "addresses" "Customer addresses" "Address" true false,
     entity "quotes" "Quotes for this customer" "Quote" true false,
     entity "wishlists" "Wishlists for this customer" "Wishlist" true false,
     entity "orders" "Orders placed by this customer" "Order" true false]

def address : Entity :=
  .ofAttributes "Address" "Address entity."
    [scalar "id" "Address id" .id false,
     scalar "country" "Country" .string false,
     scalar "city" "City" .string false,
     scalar "street" "Street" .string false,
     scalar "zip" "Postal code" .string false]

def quote : Entity :=
  .ofAttributes "Quote" "Quote entity."
    [scalar "id" "Quote id" .id false,
     scalar "name" "Quote name" .string false,
     entity "items" "Items in quote" "QuoteItem" true false,
     scalar "isDefault" "True if the default" .boolean false]

def quoteItem : Entity :=
  .ofAttributes "QuoteItem" "Quote item entity."
    [scalar "id" "Quote item id" .id false,
     entity "product" "Product added to quote" "Product" false false,
     scalar "qty" "Quantity of item" .float false,
     entity "options" "Product options for item in quote" "ProductOption" true false]

def wishlist : Entity :=
  .ofAttributes "Wishlist" "Wishlist entity."
    [scalar "id" "Wishlist id" .id false,
     scalar "name" "Wishlist name" .string false,
     entity "items" "Items in wishlist" "WishlistItem" true false,
     scalar "isDefault" "True if the default" .boolean false]

def wishlistItem : Entity :=
  .ofAttributes "WishlistItem" "Wishlist item entity."
    [scalar "id" "Wishlist item id" .id false,
     entity "product" "Product added to wishlist" "Product" false true,
     scalar "qty" "Quantity of item" .float false,
     entity "options" "Product options for item in wishlist" "ProductOption" true false]

def order : Entity :=
  .ofAttributes "Order" "Order entity."
    [scalar "id" "Order id" .id false,
     entity "customer" "Customer who placed the order" "Customer" false true,
     entity "items" "Items in order" "OrderItem" true false,
     entity "billingAddress" "Billing address" "Address" false true,
     entity "shippingAddress" "Shipping address" "Address" false true,
     scalar "shippingMethod" "Shipping method" .string false,
     entity "paymentInfo" "Payment information" "PaymentInfo" true false]

def orderItem : Entity :=
  .ofAttributes "OrderItem" "Order item entity."
    [scalar "id" "Order item id" .id false,
     entity "product" "Product added to order" "Product" false true,
     scalar "qty" "Quantity of item" .float false,
     entity "options" "Product options for item in order" "ProductOption" true false]

def paymentInfo : Entity :=
  .ofAttributes "PaymentInfo" "Payment information entity."
    [scalar "id" "Payment info id" .id false,
     scalar "paymentMethodCode" "Payment method" .string false,
     scalar "amount" "Payment amount" .float false]

def returned : Entity :=
  .ofAttributes "Return" "Return entity."
    [scalar "id" "Return id" .id false,
     scalar "orderId" "Order that was returned" .string false,
     entity "items" "Returned items" "OrderItem" true false]

def product : Entity :=
  (Entity.ofAttributes "Product" "Product."
    [scalar "id" "Product id" .id false,
     scalar "sku" "SKU" .string false,
     scalar "description" "Product description." .string false,
     entity "comments" "Customer comments" "Comment" true false]).withDiscovered productFields

def productOption : Entity :=
  .ofAttributes "ProductOption" "Product option."
    [scalar "attribute" "Product attribute." .string false,
     scalar "value" "Value selected when product was ordered" .string false]

def comment : Entity :=
  .ofAttributes "Comment" "Product comment."
    [scalar "author" "Author of comment." .string false,
     scalar "text" "Comment text." .string false]

def catalog : Catalog where
  entities :=
    [customer, address, quote, quoteItem, wishlist, wishlistItem, order, orderItem, paymentInfo,
     returned, product, productOption, comment]
  names_nodup := by decide

end EntityGraph.Storefront
