import MealDeals.Panel.Chevron
import MealDeals.Geocoder.Throttle
import MealDeals.List.Indices
import MealDeals.Map.Pins
import MealDeals.Map.Removed
import MealDeals.List.Displayed
import MealDeals.Geocoder.Line
import MealDeals.Views.DealAnnotationView
import MealDeals.Map.Latest
import MealDeals.Notifications.Sent
import MealDeals.Panel.Buttons
import MealDeals.Controller.Independence
import MealDeals.List.Order
import MealDeals.List.Screen
import MealDeals.Map.Region
import MealDeals.Map.Orphans
import MealDeals.Geocoder.Rate
import MealDeals.Geocoder.Drain
import MealDeals.Pages.Resizing
import MealDeals.Pages.Carousel
import MealDeals.Map.Completions
